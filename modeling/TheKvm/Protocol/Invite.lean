import TheKvm.Lib.Slice
import TheKvm.Protocol.Control
import TheKvm.Protocol.Wire

/-!
The pairing invite: an address and a fingerprint in one line of text.

The parser compares a lower-case copy with the schemes and cuts the text itself, at the byte where
the copy's rest begins. What stands before the last separator is the address, whatever is in it.
-/

namespace TheKvm.Invite

def inviteScheme : String := "thekvm://v1/"

/-- `&trimmed[trimmed.len() - rest.len()..]`, or nothing where it panics. -/
def lastBytes (trimmed rest : List Char) : Option (List Char) :=
  if Text.utf8Len trimmed < Text.utf8Len rest then none
  else (Text.splitAt trimmed (Text.utf8Len trimmed - Text.utf8Len rest)).map Prod.snd

/-- What is behind the scheme. -/
def schemeBody (trimmed : String) : Option (List Char) :=
  let lowered := Text.toAsciiLowercase trimmed
  match inviteScheme.toList.isPrefixOf? lowered.toList with
  | some rest => lastBytes trimmed.toList rest
  | none =>
    match "thekvm://".toList.isPrefixOf? lowered.toList with
    | some rest => lastBytes trimmed.toList rest
    | none => some trimmed.toList

/-- The address and the fingerprint of what is behind the scheme. -/
def parseBody (body : List Char) : IoResult (String × String) :=
  match Text.rsplitOnce '#' body with
  | none => .error ⟨.invalidData, "invite must contain '#<certificate fingerprint>'"⟩
  | some (address, fingerprint) =>
    let address := Text.trim (String.ofList address)
    let fingerprint := Text.toAsciiLowercase (Text.trim (String.ofList fingerprint))
    if Text.len fingerprint ≠ 64 ∨ fingerprint.toList.all Text.isAsciiHexdigit = false then
      .error ⟨.invalidData, "invite fingerprint must contain 64 hexadecimal characters"⟩
    else if address.toList.any Text.isControl then
      .error ⟨.invalidData, "invite address contains control characters"⟩
    else .ok (address, fingerprint)

/-- `parse`, or nothing where it panics. -/
def parse (text : String) : Option (IoResult (String × String)) :=
  (schemeBody (Text.trim text)).map parseBody

def build (address fingerprintHex : String) : IoResult String :=
  let fingerprint := Text.toAsciiLowercase (Text.trim fingerprintHex)
  if Text.len fingerprint ≠ 64 ∨ fingerprint.toList.all Text.isAsciiHexdigit = false then
    .error ⟨.invalidInput, "fingerprint must contain 64 hexadecimal characters"⟩
  else if address.toList.any Text.isControl then
    .error ⟨.invalidInput, "address contains control characters"⟩
  else .ok (inviteScheme ++ Text.trim address ++ "#" ++ fingerprint)

variable {text address fingerprint : String} {body a : List Char}

/-! ### What is parsed is normal -/

lemma fault_iff :
    Text.len fingerprint ≠ 64 ∨ fingerprint.toList.all Text.isAsciiHexdigit = false ↔
      ¬isFingerprint fingerprint = true := by
  rw [isFingerprint_iff, not_and_or, ← List.all_eq_true, Bool.not_eq_true]

/-- A fingerprint in lower case is hexadecimal throughout. -/
lemma isLowerHexdigit_fingerprint
    (h : isFingerprint (Text.toAsciiLowercase fingerprint) = true) :
    ∀ c ∈ (Text.toAsciiLowercase fingerprint).toList, Text.isLowerHexdigit c = true :=
  (Text.hexdigits_toAsciiLowercase (List.all_eq_true.mpr (isFingerprint_iff.mp h).2)).1

/-- A pair as a parser returns it. -/
structure Normal (address fingerprint : String) : Prop where
  trimmed : Text.trim address = address
  printable : address.toList.any Text.isControl = false
  valid : isFingerprint fingerprint = true
  lower : ∀ c ∈ fingerprint.toList, Text.isLowerHexdigit c = true

lemma normal_of_parseBody (h : parseBody body = .ok (address, fingerprint)) :
    Normal address fingerprint := by
  rw [parseBody] at h
  split at h
  · cases h
  · simp only at h
    split_ifs at h with hfault hcontrol
    rw [fault_iff, not_not] at hfault
    obtain ⟨rfl, rfl⟩ := Prod.mk.inj (Except.ok.inj h)
    exact ⟨Text.trim_trim _, Bool.eq_false_of_not_eq_true hcontrol, hfault,
      isLowerHexdigit_fingerprint hfault⟩

lemma normal_of_parse (h : parse text = some (.ok (address, fingerprint))) :
    Normal address fingerprint := by
  obtain ⟨body, -, hbody⟩ := Option.map_eq_some_iff.mp h
  exact normal_of_parseBody hbody

/-- Trimmed and in lower case, what passes the checks is normal. -/
lemma normal_of_valid (hcontrol : address.toList.any Text.isControl = false)
    (hvalid : isFingerprint (Text.trim fingerprint) = true) :
    Normal (Text.trim address) (Text.toAsciiLowercase (Text.trim fingerprint)) := by
  have hlower := isFingerprint_toAsciiLowercase hvalid
  refine ⟨Text.trim_trim _, ?_, hlower, isLowerHexdigit_fingerprint hlower⟩
  rw [List.any_eq_false] at hcontrol ⊢
  exact fun c hc => hcontrol c (Text.mem_of_mem_trim hc)

/-! ### What is built is parsed -/

lemma build_eq (hcontrol : address.toList.any Text.isControl = false)
    (hvalid : isFingerprint (Text.trim fingerprint) = true) :
    build address fingerprint = .ok (inviteScheme ++ Text.trim address ++ "#" ++
      Text.toAsciiLowercase (Text.trim fingerprint)) := by
  have hfault := isFingerprint_toAsciiLowercase hvalid
  rw [build, if_neg (fault_iff.not.mpr (not_not.mpr hfault)), hcontrol]
  rfl

/-- The body of a normal pair is read as that pair. -/
lemma parseBody_normal (h : Normal address fingerprint) :
    parseBody (address.toList ++ '#' :: fingerprint.toList) = .ok (address, fingerprint) := by
  have hsep : '#' ∉ fingerprint.toList := fun hmem => absurd (h.lower _ hmem) (by decide)
  rw [parseBody, Text.rsplitOnce_append _ hsep]
  simp only [String.ofList_toList, h.trimmed, Text.trim_hexdigits h.lower,
    Text.toAsciiLowercase_eq_self h.lower]
  rw [if_neg (fault_iff.not.mpr (not_not.mpr h.valid)), h.printable]
  rfl

/-- Behind the scheme is the rest of the text, in its own case. -/
lemma schemeBody_append (rest : List Char) :
    schemeBody (String.ofList (inviteScheme.toList ++ rest)) = some rest := by
  have hscheme : inviteScheme.toList.map Char.toLower = inviteScheme.toList := by decide +kernel
  have hprefix : inviteScheme.toList.isPrefixOf?
      (Text.toAsciiLowercase (String.ofList (inviteScheme.toList ++ rest))).toList =
        some (rest.map Char.toLower) := by
    rw [List.isPrefixOf?_eq_some_iff_append_eq, Text.toAsciiLowercase, String.toList_ofList,
      String.toList_ofList, List.map_append, hscheme]
  rw [schemeBody, hprefix]
  simp only [lastBytes, String.toList_ofList, Text.utf8Len_map_toLower, Text.utf8Len_append]
  rw [if_neg (by omega), Nat.add_sub_cancel, Text.splitAt_eq_some.mpr ⟨rfl, rfl⟩]
  rfl

/-- The parser never panics: the copy has the length of the text, byte by byte. -/
theorem parse_total (text : String) : (parse text).isSome = true := by
  have hlast : ∀ scheme rest : List Char,
      scheme.isPrefixOf? (Text.toAsciiLowercase (Text.trim text)).toList = some rest →
        (lastBytes (Text.trim text).toList rest).isSome = true := by
    intro scheme rest hprefix
    rw [List.isPrefixOf?_eq_some_iff_append_eq, Text.toAsciiLowercase, String.toList_ofList]
      at hprefix
    obtain ⟨a, b, hsplit, -, rfl⟩ := List.map_eq_append_iff.mp hprefix.symm
    rw [lastBytes, hsplit, Text.utf8Len_map_toLower, Text.utf8Len_append, if_neg (by omega),
      Nat.add_sub_cancel, Text.splitAt_eq_some.mpr ⟨rfl, rfl⟩]
    rfl
  rw [parse, Option.isSome_map, schemeBody]
  split
  · rename_i rest hprefix
    exact hlast _ rest hprefix
  · split
    · rename_i rest hprefix
      exact hlast _ rest hprefix
    · rfl

/-- A built invite has nothing around it. -/
lemma trim_built {rest : List Char} (h : Normal address fingerprint)
    (hrest : rest = address.toList ++ '#' :: fingerprint.toList) :
    Text.trim (String.ofList (inviteScheme.toList ++ rest)) =
      String.ofList (inviteScheme.toList ++ rest) := by
  have hne : fingerprint.toList ≠ [] := by
    intro hnil
    have hlen := (isFingerprint_iff.mp h.valid).1
    rw [Text.len_eq, hnil, Text.utf8Len_nil] at hlen
    omega
  apply Text.trim_of_ends
  · intro c hc
    rw [String.toList_ofList, inviteScheme] at hc
    obtain rfl : 't' = c := Option.some.inj hc
    decide
  · intro c hc
    rw [String.toList_ofList, hrest, ← List.append_assoc,
      List.getLast?_append_of_ne_nil _ (by simp), List.getLast?_cons_of_ne_nil hne] at hc
    exact Text.isWhitespace_eq_false (h.lower c (List.mem_of_getLast? hc))

/-- A normal pair is built as its text, and parsed back. -/
lemma parse_built (h : Normal address fingerprint) :
    parse (inviteScheme ++ address ++ "#" ++ fingerprint) = some (.ok (address, fingerprint)) := by
  have htext : inviteScheme ++ address ++ "#" ++ fingerprint =
      String.ofList (inviteScheme.toList ++ (address.toList ++ '#' :: fingerprint.toList)) := by
    apply String.toList_inj.mp
    simp
  rw [parse, htext, trim_built h rfl, schemeBody_append, Option.map_some, parseBody_normal h]

/-- **The invite codec**. What is built parses back to its address and fingerprint, trimmed and in
lower case; what is parsed can be built, and parses back to itself. -/
theorem invite_codec (address fingerprint text : String) (pair : String × String) :
    (address.toList.any Text.isControl = false → isFingerprint (Text.trim fingerprint) = true →
      ∃ invite, build address fingerprint = .ok invite ∧
        parse invite = some (.ok
          (Text.trim address, Text.toAsciiLowercase (Text.trim fingerprint)))) ∧
    (parse text = some (.ok pair) →
      ∃ invite, build pair.1 pair.2 = .ok invite ∧ parse invite = some (.ok pair)) := by
  constructor
  · intro hcontrol hvalid
    exact ⟨_, build_eq hcontrol hvalid, parse_built (normal_of_valid hcontrol hvalid)⟩
  · intro hparse
    obtain ⟨address, fingerprint⟩ := pair
    have hnormal := normal_of_parse hparse
    have htrim := Text.trim_hexdigits hnormal.lower
    have hbuild := build_eq hnormal.printable (by rw [htrim]; exact hnormal.valid)
    rw [hnormal.trimmed, htrim, Text.toAsciiLowercase_eq_self hnormal.lower] at hbuild
    exact ⟨_, hbuild, parse_built hnormal⟩

/-- The last separator counts, and one scheme is taken off; the address keeps its own. -/
def pastedInvite : String :=
  " Thekvm://thekvm://v1/Host#2# " ++ String.ofList (List.replicate 64 'A')

theorem pasted_invite_codec :
    (∃ invite, build " Host " (String.ofList (List.replicate 64 'F')) = .ok invite ∧
      parse invite = some (.ok ("Host", String.ofList (List.replicate 64 'f')))) ∧
    ∃ invite, build "thekvm://v1/Host#2" (String.ofList (List.replicate 64 'a')) = .ok invite ∧
      parse invite =
        some (.ok ("thekvm://v1/Host#2", String.ofList (List.replicate 64 'a'))) := by
  have hparse : parse pastedInvite =
      some (.ok ("thekvm://v1/Host#2", String.ofList (List.replicate 64 'a'))) := by
    decide +kernel
  have hcodec := invite_codec " Host " (String.ofList (List.replicate 64 'F')) pastedInvite
    ("thekvm://v1/Host#2", String.ofList (List.replicate 64 'a'))
  have htrim : Text.trim " Host " = "Host" := by decide +kernel
  have hlower : Text.toAsciiLowercase (Text.trim (String.ofList (List.replicate 64 'F'))) =
      String.ofList (List.replicate 64 'f') := by decide +kernel
  rw [htrim, hlower] at hcodec
  exact ⟨hcodec.1 (by decide +kernel) (by decide +kernel), hcodec.2 hparse⟩

end TheKvm.Invite

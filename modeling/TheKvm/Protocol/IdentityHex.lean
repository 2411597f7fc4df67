import TheKvm.Lib.Hex
import TheKvm.Lib.Slice
import TheKvm.Protocol.Wire

/-!
The hexadecimal text of the identity handoff.

The decoder slices two bytes at a time and leaves each to the integer parser. It panics where a
slice ends inside a character, and takes a plus for a leading zero.
-/

namespace TheKvm

def hexEncode (bytes : List UInt8) : String := String.ofList (Hex.encode bytes)

/-- The bytes at these offsets, up to the first that is no number; nothing where a slice panics. -/
def decodeAt (hex : List Char) : List ℕ → Option (IoResult (List UInt8))
  | [] => some (.ok [])
  | i :: offsets =>
    match Text.slice hex i (i + 2) with
    | none => none
    | some pair =>
      match Hex.fromStrRadix pair with
      | none => some (.error ⟨.invalidData, "identity hex contains non-hexadecimal data"⟩)
      | some byte => (decodeAt hex offsets).map fun result => result.map (byte :: ·)

/-- `hex_decode`, or nothing where it panics. -/
def hexDecode (hex : String) : Option (IoResult (List UInt8)) :=
  let hex := Text.trim hex
  if Text.len hex % 2 ≠ 0 then some (.error ⟨.invalidData, "identity hex has an odd length"⟩)
  else decodeAt hex.toList (List.range' 0 ((Text.len hex + 1) / 2) 2)

/-! ### Where a slice ends inside a character -/

/-- The first two bytes of what is left are not whole characters. -/
def Straddles (cs : List Char) : Prop := cs ≠ [] ∧ Text.isCharBoundary cs 2 = false

/-- Behind some pairs the next two bytes are not whole characters. -/
def Torn (cs : List Char) : Prop := ∃ p r, cs = p ++ r ∧ Hex.InPairs p ∧ Straddles r

variable {c d : Char} {cs pair before rest : List Char} {bytes : List UInt8} {i n : ℕ}

lemma splitAt_pair (h : Hex.IsPair c d) (cs : List Char) :
    Text.splitAt (c :: d :: cs) 2 = some ([c, d], cs) := by
  obtain ⟨hc, hd⟩ := h.ascii
  refine Text.splitAt_eq_some.mpr ⟨rfl, ?_⟩
  rw [Text.utf8Len_cons, Text.utf8Len_cons, hc, hd, Text.utf8Len_nil]

lemma not_straddles (h : Text.splitAt cs 2 = some (pair, rest)) : ¬Straddles cs := by
  rintro ⟨-, hboundary⟩
  rw [Text.isCharBoundary, h] at hboundary
  cases hboundary

/-- What is torn at its start is torn, and is not in pairs. -/
lemma torn_of_straddles (h : Straddles cs) : Torn cs ∧ ¬Hex.InPairs cs := by
  refine ⟨⟨[], cs, rfl, .nil, h⟩, fun hcs => ?_⟩
  cases hcs with
  | nil => exact h.1 rfl
  | pair head _ => exact not_straddles (splitAt_pair head _) h

/-- A pair in front changes nothing. -/
lemma torn_cons (h : Hex.IsPair c d) : Torn (c :: d :: cs) ↔ Torn cs := by
  constructor
  · rintro ⟨p, r, heq, hp, hr⟩
    cases hp with
    | nil =>
      rw [List.nil_append] at heq
      rw [← heq] at hr
      exact absurd hr (not_straddles (splitAt_pair h cs))
    | @pair _ _ p _ hp =>
      simp only [List.cons_append, List.cons.injEq] at heq
      exact ⟨p, r, heq.2.2, hp, hr⟩
  · rintro ⟨p, r, rfl, hp, hr⟩
    exact ⟨c :: d :: p, r, rfl, .pair h hp, hr⟩

/-! ### The loop -/

/-- Two bytes that are whole characters and no number end the loop. -/
lemma fromStrRadix_none (hsplit : Text.splitAt cs 2 = some (pair, rest))
    (h : Hex.fromStrRadix pair = none) : ¬Torn cs ∧ ¬Hex.InPairs cs := by
  have hpair : ∀ c d r, cs = c :: d :: r → ¬Hex.IsPair c d := by
    rintro c d r rfl hpair
    rw [splitAt_pair hpair, Option.some.injEq, Prod.mk.injEq] at hsplit
    rw [← hsplit.1, (Hex.fromStrRadix_pair c d).mpr ⟨hpair, rfl⟩] at h
    cases h
  constructor
  · rintro ⟨p, r, rfl, hp, hr⟩
    cases hp with
    | nil => exact not_straddles hsplit hr
    | pair head _ => exact hpair _ _ _ rfl head
  · intro hcs
    cases hcs with
    | nil => cases hsplit
    | pair head _ => exact hpair _ _ _ rfl head

lemma decodeAt_cons (hbefore : Text.utf8Len before = i) (n : ℕ) :
    decodeAt (before ++ rest) (List.range' i (n + 1) 2) =
      match Text.splitAt rest 2 with
      | none => none
      | some (pair, _) =>
        match Hex.fromStrRadix pair with
        | none => some (.error ⟨.invalidData, "identity hex contains non-hexadecimal data"⟩)
        | some byte =>
          (decodeAt (before ++ rest) (List.range' (i + 2) n 2)).map
            fun result => result.map (byte :: ·) := by
  rw [List.range'_succ, decodeAt, Text.slice_append hbefore]
  cases Text.splitAt rest 2 with
  | none => rfl
  | some parts => rfl

/-- What the loop makes of the rest of a text: it panics exactly if that is torn, and gives bytes
exactly if it is in pairs. -/
lemma decodeAt_spec (hbefore : Text.utf8Len before = i) (hlen : Text.utf8Len rest = 2 * n) :
    (decodeAt (before ++ rest) (List.range' i n 2) = none ↔ Torn rest) ∧
      ∀ bytes, decodeAt (before ++ rest) (List.range' i n 2) = some (.ok bytes) ↔
        Hex.InPairs rest ∧ bytes = Hex.bytes rest := by
  induction n generalizing before rest i with
  | zero =>
    obtain rfl := Text.utf8Len_eq_zero.mp hlen
    constructor
    · refine iff_of_false (by simp [decodeAt]) ?_
      rintro ⟨p, r, heq, -, hr, -⟩
      exact hr (List.nil_eq_append_iff.mp heq).2
    · intro bytes
      constructor
      · intro h
        exact ⟨.nil, (Except.ok.inj (Option.some.inj h)).symm⟩
      · rintro ⟨-, rfl⟩
        rfl
  | succ n ih =>
    rw [decodeAt_cons hbefore]
    rcases hsplit : Text.splitAt rest 2 with _ | ⟨pair, tail⟩
    · -- The slice panics.
      have hstraddles : Straddles rest := by
        refine ⟨?_, by rw [Text.isCharBoundary, hsplit]; rfl⟩
        rintro rfl
        rw [Text.utf8Len_nil] at hlen
        omega
      obtain ⟨htorn, hpairs⟩ := torn_of_straddles hstraddles
      exact ⟨iff_of_true rfl htorn, fun bytes => iff_of_false (by simp) fun h => hpairs h.1⟩
    obtain ⟨rfl, hsize⟩ := Text.splitAt_eq_some.mp hsplit
    rcases hbyte : Hex.fromStrRadix pair with _ | byte
    · obtain ⟨htorn, hpairs⟩ := fromStrRadix_none hsplit hbyte
      simp only [hbyte]
      exact ⟨iff_of_false (by simp) htorn, fun bytes => iff_of_false (by simp) fun h => hpairs h.1⟩
    obtain ⟨c, d, rfl, hpair, rfl⟩ := (Hex.fromStrRadix_eq_some hsize).mp hbyte
    have hshift : before ++ ([c, d] ++ tail) = before ++ [c, d] ++ tail :=
      (List.append_assoc _ _ _).symm
    have hnext : Text.utf8Len (before ++ [c, d]) = i + 2 := by
      rw [Text.utf8Len_append, hbefore, hsize]
    have htail : Text.utf8Len tail = 2 * n := by
      rw [Text.utf8Len_append, hsize] at hlen
      omega
    obtain ⟨hnone, hok⟩ := ih hnext htail
    rw [← hshift] at hnone hok
    simp only [hbyte]
    refine ⟨?_, fun bytes => ?_⟩
    · rw [Option.map_eq_none_iff, hnone, List.cons_append, List.singleton_append, torn_cons hpair]
    · rw [Option.map_eq_some_iff]
      constructor
      · rintro ⟨result, hresult, hmap⟩
        cases result with
        | error error => cases hmap
        | ok bytes' =>
          obtain ⟨htail, rfl⟩ := (hok bytes').mp hresult
          exact ⟨.pair hpair htail, (Except.ok.inj hmap).symm⟩
      · rintro ⟨hrest, rfl⟩
        cases hrest with
        | pair _ htail => exact ⟨_, (hok _).mpr ⟨htail, rfl⟩, rfl⟩

/-! ### The decoder -/

lemma even_of_inPairs {text : String} (h : Hex.InPairs text.toList) : Even (Text.len text) := by
  rw [Text.len_eq]
  exact Hex.even_utf8Len h

section

variable {hex : String}

lemma hexDecode_odd (h : ¬Even (Text.len (Text.trim hex))) :
    hexDecode hex = some (.error ⟨.invalidData, "identity hex has an odd length"⟩) := by
  rw [Nat.even_iff] at h
  rw [hexDecode, if_pos h]

lemma hexDecode_even (h : Even (Text.len (Text.trim hex))) :
    (hexDecode hex = none ↔ Torn (Text.trim hex).toList) ∧
      ∀ bytes, hexDecode hex = some (.ok bytes) ↔
        Hex.InPairs (Text.trim hex).toList ∧ bytes = Hex.bytes (Text.trim hex).toList := by
  rw [Nat.even_iff] at h
  have hlen : Text.utf8Len (Text.trim hex).toList = 2 * ((Text.len (Text.trim hex) + 1) / 2) := by
    rw [← Text.len_eq]
    omega
  have hspec := @decodeAt_spec [] _ _ _ Text.utf8Len_nil hlen
  rw [List.nil_append] at hspec
  rw [hexDecode, if_neg (not_not.mpr h)]
  exact hspec

/-- Only a text in pairs is decoded. -/
lemma hexDecode_ok : hexDecode hex = some (.ok bytes) ↔
    Hex.InPairs (Text.trim hex).toList ∧ bytes = Hex.bytes (Text.trim hex).toList := by
  by_cases heven : Even (Text.len (Text.trim hex))
  · exact (hexDecode_even heven).2 bytes
  · rw [hexDecode_odd heven]
    refine iff_of_false nofun ?_
    rintro ⟨hpairs, -⟩
    exact heven (even_of_inPairs hpairs)

end

/-! ### Which texts are read right -/

/-- Hexadecimal digits, an even number of them. -/
def IsHex (text : String) : Prop :=
  Even (Text.len text) ∧ ∀ c ∈ text.toList, Text.isAsciiHexdigit c = true

/-- The decoder comes back from a text, takes it exactly if it is hexadecimal, and loses nothing
of it but the case of its digits. -/
structure ReadsHex (hex : String) : Prop where
  total : hexDecode hex ≠ none
  exact : (∃ bytes, hexDecode hex = some (.ok bytes)) ↔ IsHex (Text.trim hex)
  faithful : ∀ bytes, hexDecode hex = some (.ok bytes) →
    hexEncode bytes = Text.toAsciiLowercase (Text.trim hex)

lemma IsHex.inPairs {text : String} (h : IsHex text) :
    Hex.InPairs text.toList ∧ '+' ∉ text.toList := by
  obtain ⟨heven, hdigits⟩ := h
  rw [Text.len_eq, Text.utf8Len_ascii fun c hc => Text.toNat_lt_of_isAsciiHexdigit (hdigits c hc)]
    at heven
  exact ⟨Hex.inPairs_of_digits _ heven hdigits, fun hplus => absurd (hdigits _ hplus) (by decide)⟩

lemma isHex_of_inPairs {text : String} (h : Hex.InPairs text.toList) (hplus : '+' ∉ text.toList) :
    IsHex text :=
  ⟨even_of_inPairs h, Hex.digits_of_inPairs h hplus⟩

lemma hexDecode_encode (bytes : List UInt8) : hexDecode (hexEncode bytes) = some (.ok bytes) := by
  have hlower : ∀ c ∈ (hexEncode bytes).toList, Text.isLowerHexdigit c = true := by
    rw [hexEncode, String.toList_ofList]
    exact Hex.isLowerHexdigit_encode bytes
  obtain ⟨hpairs, hbytes⟩ := Hex.bytes_encode bytes
  rw [hexDecode_ok, Text.trim_hexdigits hlower, hexEncode, String.toList_ofList]
  exact ⟨hpairs, hbytes.symm⟩

/-- **Which texts are read right**: of those with an even length, the ones that are not cut inside
a character behind some pairs, and have no plus if they are pairs throughout. What was encoded is
decoded. -/
theorem readsHex_iff (hex : String) (bytes : List UInt8) :
    (ReadsHex hex ↔ (Even (Text.len (Text.trim hex)) →
      ¬Torn (Text.trim hex).toList ∧
        (Hex.InPairs (Text.trim hex).toList → '+' ∉ (Text.trim hex).toList))) ∧
      hexDecode (hexEncode bytes) = some (.ok bytes) := by
  refine ⟨⟨fun h heven => ⟨fun htorn => ?_, fun hpairs hplus => ?_⟩, fun h => ?_⟩,
    hexDecode_encode bytes⟩
  · exact h.total ((hexDecode_even heven).1.mpr htorn)
  · have hhex := h.exact.mp ⟨_, hexDecode_ok.mpr ⟨hpairs, rfl⟩⟩
    exact hhex.inPairs.2 hplus
  · have hplain : Hex.InPairs (Text.trim hex).toList → IsHex (Text.trim hex) := by
      intro hpairs
      exact isHex_of_inPairs hpairs ((h (even_of_inPairs hpairs)).2 hpairs)
    refine ⟨?_, ⟨?_, ?_⟩, ?_⟩
    · by_cases heven : Even (Text.len (Text.trim hex))
      · rw [Ne, (hexDecode_even heven).1]
        exact (h heven).1
      · rw [hexDecode_odd heven]
        nofun
    · rintro ⟨bytes, hok⟩
      exact hplain (hexDecode_ok.mp hok).1
    · intro hhex
      exact ⟨_, hexDecode_ok.mpr ⟨hhex.inPairs.1, rfl⟩⟩
    · intro bytes hok
      obtain ⟨hpairs, rfl⟩ := hexDecode_ok.mp hok
      rw [hexEncode, Text.toAsciiLowercase, Hex.encode_bytes hpairs (hplain hpairs).2]

/-- A plus is taken for a zero, and a character across the second byte is a panic. -/
theorem hexDecode_not_strict :
    hexDecode "+f" = some (.ok [0x0f]) ∧ ¬ReadsHex "+f" ∧ hexDecode "aé1" = none ∧
      ¬ReadsHex "aé1" := by
  have hplus : hexDecode "+f" = some (.ok [0x0f]) := by decide +kernel
  have hpanic : hexDecode "aé1" = none := by decide +kernel
  refine ⟨hplus, fun h => ?_, hpanic, fun h => h.total hpanic⟩
  have hhex := h.exact.mp ⟨_, hplus⟩
  exact hhex.inPairs.2 (by decide +kernel)

end TheKvm

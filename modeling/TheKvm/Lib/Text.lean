import Mathlib.Algebra.BigOperators.Group.List.Basic
import Mathlib.Algebra.Order.Ring.Int
import Mathlib.Data.List.DropRight

/-!
Rust strings: white space, control characters, trimming, and their bytes.
-/

namespace TheKvm.Text

/-- `char::is_whitespace`: the Unicode property White_Space. -/
def isWhitespace (c : Char) : Bool :=
  (9 ≤ c.toNat && c.toNat ≤ 13) || c.toNat == 0x20 || c.toNat == 0x85 || c.toNat == 0xa0 ||
    c.toNat == 0x1680 || (0x2000 ≤ c.toNat && c.toNat ≤ 0x200a) || c.toNat == 0x2028 ||
    c.toNat == 0x2029 || c.toNat == 0x202f || c.toNat == 0x205f || c.toNat == 0x3000

/-- `char::is_control`: the Unicode category Cc. -/
def isControl (c : Char) : Bool :=
  c.toNat ≤ 0x1f || (0x7f ≤ c.toNat && c.toNat ≤ 0x9f)

/-- `str::contains`. -/
def contains (s part : String) : Bool :=
  (List.range (s.toList.length + 1)).any fun i => part.toList.isPrefixOf (s.toList.drop i)

/-- `str::ends_with`. -/
def endsWith (s part : String) : Bool := part.toList.isSuffixOf s.toList

/-- `str::trim`. -/
def trim (s : String) : String :=
  String.ofList ((s.toList.dropWhile isWhitespace).rdropWhile isWhitespace)

/-- A string that starts with something to see is not blank. -/
lemma trim_not_empty {s : String} {c : Char} (h : s.toList.head? = some c)
    (hc : isWhitespace c = false) : (trim s).isEmpty = false := by
  obtain ⟨rest, hrest⟩ := List.head?_eq_some_iff.mp h
  by_contra hblank
  rw [Bool.not_eq_false, String.isEmpty_iff, trim, String.ofList_eq_empty_iff, hrest,
    List.dropWhile_cons_of_neg (by rw [hc]; exact Bool.false_ne_true),
    List.rdropWhile_eq_nil_iff] at hblank
  rw [hblank c List.mem_cons_self] at hc
  cases hc

/-- What has no white space in it is not trimmed. -/
lemma trim_eq_self {s : String} (h : ∀ c ∈ s.toList, isWhitespace c = false) : trim s = s := by
  have hleft : s.toList.dropWhile isWhitespace = s.toList := by
    rw [List.dropWhile_eq_self_iff]
    intro hl
    rw [h _ (List.getElem_mem hl)]
    exact Bool.false_ne_true
  have hright : s.toList.rdropWhile isWhitespace = s.toList := by
    rw [List.rdropWhile_eq_self_iff]
    intro hl
    rw [h _ (List.getLast_mem hl)]
    exact Bool.false_ne_true
  rw [trim, hleft, hright, String.ofList_toList]

/-- Nothing is left to trim. -/
lemma trim_trim (s : String) : trim (trim s) = trim s := by
  have hpre := List.rdropWhile_prefix isWhitespace (l := s.toList.dropWhile isWhitespace)
  have hleft : ((s.toList.dropWhile isWhitespace).rdropWhile isWhitespace).dropWhile isWhitespace
      = (s.toList.dropWhile isWhitespace).rdropWhile isWhitespace := by
    rw [List.dropWhile_eq_self_iff]
    intro hl
    have hpos : 0 < (s.toList.dropWhile isWhitespace).length := hl.trans_le hpre.length_le
    rw [hpre.getElem hl]
    exact List.dropWhile_get_zero_not _ _ hpos
  rw [trim, trim, String.toList_ofList, hleft, List.rdropWhile_idempotent]

/-- What starts and ends with something to see is not trimmed. -/
lemma trim_of_ends {s : String} (hhead : ∀ c ∈ s.toList.head?, isWhitespace c = false)
    (hlast : ∀ c ∈ s.toList.getLast?, isWhitespace c = false) : trim s = s := by
  have hleft : s.toList.dropWhile isWhitespace = s.toList := by
    rw [List.dropWhile_eq_self_iff]
    intro hl
    rw [hhead _ (List.head?_eq_getElem? ▸ List.getElem?_eq_getElem hl)]
    exact Bool.false_ne_true
  have hright : s.toList.rdropWhile isWhitespace = s.toList := by
    rw [List.rdropWhile_eq_self_iff]
    intro hl
    rw [hlast _ (List.getLast?_eq_some_getLast hl)]
    exact Bool.false_ne_true
  rw [trim, hleft, hright, String.ofList_toList]

/-- Trimming adds nothing. -/
lemma mem_of_mem_trim {s : String} {c : Char} (h : c ∈ (trim s).toList) : c ∈ s.toList := by
  rw [trim, String.toList_ofList] at h
  exact (List.dropWhile_suffix _).subset ((List.rdropWhile_prefix _ _).subset h)

/-! ### ASCII -/

/-- `str::to_ascii_lowercase`. -/
def toAsciiLowercase (s : String) : String := String.ofList (s.toList.map Char.toLower)

/-- `is_ascii_hexdigit`. -/
def isAsciiHexdigit (c : Char) : Bool :=
  (0x30 ≤ c.toNat && c.toNat ≤ 0x39) || (0x41 ≤ c.toNat && c.toNat ≤ 0x46) ||
    (0x61 ≤ c.toNat && c.toNat ≤ 0x66)

lemma toNat_toLower (c : Char) :
    c.toLower.toNat = if 0x41 ≤ c.toNat ∧ c.toNat ≤ 0x5a then c.toNat + 0x20 else c.toNat := by
  have hupper : c.val ≥ 'A'.val ∧ c.val ≤ 'Z'.val ↔ 0x41 ≤ c.toNat ∧ c.toNat ≤ 0x5a := by
    rw [ge_iff_le, UInt32.le_iff_toNat_le, UInt32.le_iff_toNat_le]
    rfl
  unfold Char.toLower
  split_ifs with h hle hle
  · have hsum : (c.val + ('a'.val - 'A'.val)).toNat = (c.val.toNat + 0x20) % 2 ^ 32 :=
      UInt32.toNat_add _ _
    refine hsum.trans (Nat.mod_eq_of_lt ?_)
    have hval : c.val.toNat = c.toNat := rfl
    omega
  · exact absurd (hupper.mp h) hle
  · exact absurd (hupper.mpr hle) h
  · rfl

lemma toLower_toLower (c : Char) : c.toLower.toLower = c.toLower := by
  apply Char.toNat_inj.mp
  rw [toNat_toLower, toNat_toLower]
  split_ifs <;> omega

lemma toAsciiLowercase_idem (s : String) :
    toAsciiLowercase (toAsciiLowercase s) = toAsciiLowercase s := by
  rw [toAsciiLowercase, toAsciiLowercase, String.toList_ofList, List.map_map]
  congr 1
  exact List.map_congr_left fun c _ => toLower_toLower c

/-- Casing leaves white space alone. -/
lemma isWhitespace_toLower (c : Char) : isWhitespace c.toLower = isWhitespace c := by
  rw [isWhitespace, isWhitespace, toNat_toLower]
  split_ifs with h
  · rw [Bool.eq_iff_iff]
    simp only [Bool.or_eq_true, Bool.and_eq_true, decide_eq_true_eq, beq_iff_eq]
    omega
  · rfl

/-- What is a hexadecimal digit in lower case. -/
def isLowerHexdigit (c : Char) : Bool :=
  (0x30 ≤ c.toNat && c.toNat ≤ 0x39) || (0x61 ≤ c.toNat && c.toNat ≤ 0x66)

lemma isLowerHexdigit_toLower {c : Char} (h : isAsciiHexdigit c.toLower = true) :
    isLowerHexdigit c.toLower = true := by
  rw [isAsciiHexdigit, toNat_toLower] at h
  rw [isLowerHexdigit, toNat_toLower]
  simp only [Bool.or_eq_true, Bool.and_eq_true, decide_eq_true_eq] at h ⊢
  split_ifs at h ⊢
  · omega
  · omega

lemma isAsciiHexdigit_toLower {c : Char} (h : isAsciiHexdigit c = true) :
    isAsciiHexdigit c.toLower = true := by
  rw [isAsciiHexdigit] at h ⊢
  rw [toNat_toLower]
  simp only [Bool.or_eq_true, Bool.and_eq_true, decide_eq_true_eq] at h ⊢
  split_ifs
  · omega
  · omega

lemma toNat_lt_of_isAsciiHexdigit {c : Char} (h : isAsciiHexdigit c = true) : c.toNat < 0x80 := by
  simp only [isAsciiHexdigit, Bool.or_eq_true, Bool.and_eq_true, decide_eq_true_eq] at h
  omega

lemma toLower_eq_self {c : Char} (h : isLowerHexdigit c = true) : c.toLower = c := by
  apply Char.toNat_inj.mp
  rw [toNat_toLower, if_neg]
  simp only [isLowerHexdigit, Bool.or_eq_true, Bool.and_eq_true, decide_eq_true_eq] at h
  omega

lemma isWhitespace_eq_false {c : Char} (h : isLowerHexdigit c = true) : isWhitespace c = false := by
  rw [← Bool.not_eq_true]
  simp only [isLowerHexdigit, isWhitespace, Bool.or_eq_true, Bool.and_eq_true, decide_eq_true_eq,
    beq_iff_eq] at h ⊢
  omega

lemma toAsciiLowercase_eq_self {s : String} (h : ∀ c ∈ s.toList, isLowerHexdigit c = true) :
    toAsciiLowercase s = s := by
  have hmap : s.toList.map Char.toLower = s.toList := by
    conv_rhs => rw [← List.map_id s.toList]
    exact List.map_congr_left fun c hc => toLower_eq_self (h c hc)
  rw [toAsciiLowercase, hmap, String.ofList_toList]

lemma trim_hexdigits {s : String} (h : ∀ c ∈ s.toList, isLowerHexdigit c = true) : trim s = s :=
  trim_eq_self fun c hc => isWhitespace_eq_false (h c hc)

/-- What is hexadecimal after casing was so before, and had no white space. -/
lemma hexdigits_toAsciiLowercase {s : String}
    (h : (toAsciiLowercase s).toList.all isAsciiHexdigit = true) :
    (∀ c ∈ (toAsciiLowercase s).toList, isLowerHexdigit c = true) ∧ trim s = s := by
  rw [toAsciiLowercase, String.toList_ofList, List.all_map, List.all_eq_true] at h
  constructor
  · intro c hc
    rw [toAsciiLowercase, String.toList_ofList] at hc
    obtain ⟨d, hd, rfl⟩ := List.mem_map.mp hc
    exact isLowerHexdigit_toLower (h d hd)
  · apply trim_eq_self
    intro c hc
    rw [← isWhitespace_toLower]
    exact isWhitespace_eq_false (isLowerHexdigit_toLower (h c hc))

/-! ### UTF-8 -/

/-- The bytes of a text. -/
def utf8 (cs : List Char) : List UInt8 := cs.flatMap String.utf8EncodeChar

/-- `str::len`. -/
def len (s : String) : ℕ := (utf8 s.toList).length

/-- The length of a text in UTF-8. -/
def utf8Len (cs : List Char) : ℕ := (cs.map Char.utf8Size).sum

@[simp] lemma utf8Len_nil : utf8Len [] = 0 := rfl

@[simp] lemma utf8Len_cons (c : Char) (cs : List Char) :
    utf8Len (c :: cs) = c.utf8Size + utf8Len cs := by
  simp [utf8Len]

@[simp] lemma utf8Len_append (cs ds : List Char) :
    utf8Len (cs ++ ds) = utf8Len cs + utf8Len ds := by
  simp [utf8Len]

lemma utf8Len_eq_zero {cs : List Char} : utf8Len cs = 0 ↔ cs = [] := by
  cases cs with
  | nil => exact iff_of_true rfl rfl
  | cons c cs =>
    have := c.utf8Size_pos
    rw [utf8Len_cons]
    exact iff_of_false (by omega) (List.cons_ne_nil _ _)

lemma length_utf8 (cs : List Char) : (utf8 cs).length = utf8Len cs := by
  simp [utf8, utf8Len, List.length_flatMap]

/-- An ASCII character is one byte. -/
lemma utf8Size_eq_one {c : Char} (h : c.toNat < 0x80) : c.utf8Size = 1 := by
  have hle : c.val ≤ 0x7f := UInt32.le_iff_toNat_le.mpr (by
    show c.toNat ≤ 127
    omega)
  rw [Char.utf8Size]
  exact if_pos hle

lemma utf8Len_ascii {cs : List Char} (h : ∀ c ∈ cs, c.toNat < 0x80) :
    utf8Len cs = cs.length := by
  induction cs with
  | nil => rfl
  | cons c cs ih =>
    rw [utf8Len_cons, utf8Size_eq_one (h c List.mem_cons_self),
      ih fun d hd => h d (List.mem_cons_of_mem _ hd), List.length_cons]
    omega

/-- Casing leaves the length alone. -/
lemma utf8Size_toLower (c : Char) : c.toLower.utf8Size = c.utf8Size := by
  by_cases hupper : 0x41 ≤ c.toNat ∧ c.toNat ≤ 0x5a
  · have hlower : c.toLower.toNat < 0x80 := by
      rw [toNat_toLower, if_pos hupper]
      omega
    rw [utf8Size_eq_one hlower, utf8Size_eq_one (by omega)]
  · have hsame : c.toLower = c := by
      apply Char.toNat_inj.mp
      rw [toNat_toLower, if_neg hupper]
    rw [hsame]

lemma utf8Len_map_toLower (cs : List Char) : utf8Len (cs.map Char.toLower) = utf8Len cs := by
  rw [utf8Len, utf8Len, List.map_map]
  exact congrArg List.sum (List.map_congr_left fun c _ => utf8Size_toLower c)

/-- Two texts with the same bytes are the same. -/
lemma utf8_injective : Function.Injective utf8 := by
  intro cs ds h
  have hbytes : (String.ofList cs).toByteArray = (String.ofList ds).toByteArray := by
    rw [String.toByteArray_ofList, String.toByteArray_ofList, List.utf8Encode, List.utf8Encode]
    exact congrArg List.toByteArray h
  exact String.ofList_injective (String.toByteArray_inj.mp hbytes)

lemma len_eq (s : String) : len s = utf8Len s.toList := length_utf8 _

lemma utf8ByteSize_eq_len (s : String) : s.utf8ByteSize = len s := by
  rw [← String.size_toByteArray, ← String.utf8Encode_toList, List.utf8Encode,
    List.size_toByteArray]
  rfl

lemma length_le_utf8Len (cs : List Char) : cs.length ≤ utf8Len cs := by
  induction cs with
  | nil => rfl
  | cons c cs ih =>
    have := c.utf8Size_pos
    rw [List.length_cons, utf8Len_cons]
    omega

end TheKvm.Text

import Mathlib.Data.Nat.Notation
import TheKvm.Lib.Text

/-!
JSON documents and their compact text.

The text is what a compact writer puts out: no white space, strings with the short escapes
and `\u00xx` for the other control characters, everything else as it stands. The size of a
document is counted on the document; `length_bytes` says it is the length of its UTF-8 text.
-/

namespace TheKvm

/-- A document whose numbers are integers. -/
inductive Json
  | null
  | bool (b : Bool)
  | num (n : ℤ)
  | str (s : String)
  | arr (items : List Json)
  | obj (fields : List (String × Json))

namespace Json

open Text

/-- A natural number. -/
def nat (n : ℕ) : Json := .num n

/-- What may be absent. -/
def option {α : Type*} (f : α → Json) : Option α → Json
  | some a => f a
  | none => .null

/-- An object of one field: a value under its tag. -/
def tagged (tag : String) (v : Json) : Json := .obj [(tag, v)]

/-! ### Access -/

/-- `Value::get` of a key. -/
def get (v : Json) (key : String) : Option Json :=
  match v with
  | obj fields => fields.lookup key
  | _ => none

/-- `Value::as_array`. -/
def asArray : Json → Option (List Json)
  | arr items => some items
  | _ => none

/-- `Value::as_u64`. -/
def asU64 : Json → Option UInt64
  | num n => if 0 ≤ n ∧ n < 2 ^ 64 then some (UInt64.ofNat n.toNat) else none
  | _ => none

lemma asU64_nat (n : UInt64) : asU64 (nat n.toNat) = some n := by
  have := n.toNat_lt
  have hrange : (0 : ℤ) ≤ (n.toNat : ℤ) ∧ (n.toNat : ℤ) < 2 ^ 64 := by omega
  rw [nat, asU64, if_pos hrange]
  simp

/-! ### Text -/

/-- A hexadecimal digit, lower case. -/
def hexDigit (n : ℕ) : Char := (n % 16).digitChar

/-- A character inside a string. -/
def escape (c : Char) : List Char :=
  if c = '"' then ['\\', '"']
  else if c = '\\' then ['\\', '\\']
  else if c.toNat = 0x08 then ['\\', 'b']
  else if c.toNat = 0x09 then ['\\', 't']
  else if c.toNat = 0x0a then ['\\', 'n']
  else if c.toNat = 0x0c then ['\\', 'f']
  else if c.toNat = 0x0d then ['\\', 'r']
  else if c.toNat < 0x20 then ['\\', 'u', '0', '0', hexDigit (c.toNat / 16), hexDigit c.toNat]
  else [c]

/-- A string with its quotes. -/
def quoted (s : String) : List Char := '"' :: (s.toList.flatMap escape ++ ['"'])

/-- An integer in decimal. -/
def decimal : ℤ → List Char
  | .ofNat n => Nat.toDigits 10 n
  | .negSucc n => '-' :: Nat.toDigits 10 (n + 1)

mutual

/-- The compact text of a document. -/
def text : Json → List Char
  | null => ['n', 'u', 'l', 'l']
  | bool true => ['t', 'r', 'u', 'e']
  | bool false => ['f', 'a', 'l', 's', 'e']
  | num n => decimal n
  | str s => quoted s
  | arr items => '[' :: ([','].intercalate (itemTexts items) ++ [']'])
  | obj fields => '{' :: ([','].intercalate (fieldTexts fields) ++ ['}'])

def itemTexts : List Json → List (List Char)
  | [] => []
  | v :: rest => v.text :: itemTexts rest

def fieldTexts : List (String × Json) → List (List Char)
  | [] => []
  | (k, v) :: rest => (quoted k ++ ':' :: v.text) :: fieldTexts rest

end

/-- The UTF-8 encoding of the compact text. -/
def bytes (v : Json) : List UInt8 := utf8 v.text

/-! ### Size -/

/-- The bytes a character takes inside a string. -/
def escapedSize (c : Char) : ℕ :=
  if c = '"' ∨ c = '\\' ∨ c.toNat = 0x08 ∨ c.toNat = 0x09 ∨ c.toNat = 0x0a ∨ c.toNat = 0x0c ∨
    c.toNat = 0x0d then 2
  else if c.toNat < 0x20 then 6
  else c.utf8Size

/-- The bytes a string takes between its quotes. -/
def escapedLen (s : String) : ℕ := (s.toList.map escapedSize).sum

/-- The digits of a number, with its sign. -/
def decimalLen (n : ℤ) : ℕ := (decimal n).length

mutual

/-- The length of the compact text in bytes. -/
def size : Json → ℕ
  | null => 4
  | bool true => 4
  | bool false => 5
  | num n => decimalLen n
  | str s => escapedLen s + 2
  | arr items => itemsSize items - 1 + 2
  | obj fields => fieldsSize fields - 1 + 2

/-- The items, each with a comma. -/
def itemsSize : List Json → ℕ
  | [] => 0
  | v :: rest => v.size + 1 + itemsSize rest

/-- The fields, each with its colon and a comma. -/
def fieldsSize : List (String × Json) → ℕ
  | [] => 0
  | (k, v) :: rest => escapedLen k + 2 + 1 + v.size + 1 + fieldsSize rest

end

lemma hexDigit_ascii (n : ℕ) : (hexDigit n).toNat < 0x80 := by
  have hlt : n % 16 < 16 := Nat.mod_lt _ (by omega)
  unfold hexDigit
  generalize n % 16 = m at hlt
  revert m
  decide

/-- A number is written in digits behind a sign. -/
lemma mem_decimal {n : ℤ} {c : Char} (h : c ∈ decimal n) :
    c = '-' ∨ (48 ≤ c.toNat ∧ c.toNat ≤ 57) := by
  have hdigit {m : ℕ} (hc : c ∈ Nat.toDigits 10 m) : 48 ≤ c.toNat ∧ c.toNat ≤ 57 := by
    have h := Nat.isDigit_of_mem_toDigits (by omega) (by omega) hc
    simp only [Char.isDigit, Bool.and_eq_true, decide_eq_true_eq] at h
    exact ⟨UInt32.le_iff_toNat_le.mp h.1, UInt32.le_iff_toNat_le.mp h.2⟩
  rcases n with n | n
  · exact Or.inr (hdigit h)
  · exact (List.mem_cons.mp h).imp_right hdigit

lemma decimal_ascii (n : ℤ) : ∀ c ∈ decimal n, c.toNat < 0x80 := by
  intro c hc
  rcases mem_decimal hc with rfl | ⟨-, hle⟩
  · decide
  · omega

lemma utf8Len_decimal (n : ℤ) : utf8Len (decimal n) = decimalLen n :=
  utf8Len_ascii (decimal_ascii n)

lemma utf8Len_escape (c : Char) : utf8Len (escape c) = escapedSize c := by
  by_cases hshort : c = '"' ∨ c = '\\' ∨ c.toNat = 0x08 ∨ c.toNat = 0x09 ∨ c.toNat = 0x0a ∨
      c.toNat = 0x0c ∨ c.toNat = 0x0d
  · rw [escapedSize, if_pos hshort, escape]
    split_ifs <;> first | rfl | simp_all
  · rw [escapedSize, if_neg hshort, escape]
    simp only [not_or] at hshort
    obtain ⟨h1, h2, h3, h4, h5, h6, h7⟩ := hshort
    rw [if_neg h1, if_neg h2, if_neg h3, if_neg h4, if_neg h5, if_neg h6, if_neg h7]
    split_ifs
    · simp only [utf8Len_cons, utf8Len_nil, utf8Size_eq_one (hexDigit_ascii _)]
      rfl
    · simp

lemma utf8Len_quoted (s : String) : utf8Len (quoted s) = escapedLen s + 2 := by
  have h : ∀ cs : List Char, utf8Len (cs.flatMap escape) = (cs.map escapedSize).sum := by
    intro cs
    induction cs with
    | nil => rfl
    | cons c cs ih => simp [utf8Len_escape, ih]
  rw [quoted, utf8Len_cons, utf8Len_append, h, escapedLen]
  show 1 + (_ + 1) = _
  omega

lemma utf8Len_intercalate (l : List (List Char)) :
    utf8Len ([','].intercalate l) = (l.map fun cs => utf8Len cs + 1).sum - 1 := by
  induction l with
  | nil => rfl
  | cons cs rest ih =>
    cases rest with
    | nil => simp [List.intercalate]
    | cons ds rest =>
      have hcons : [','].intercalate (cs :: ds :: rest) =
          cs ++ ',' :: [','].intercalate (ds :: rest) := by
        simp [List.intercalate]
      rw [hcons, utf8Len_append, utf8Len_cons, ih, show ','.utf8Size = 1 from rfl]
      simp only [List.map_cons, List.sum_cons]
      omega

mutual

lemma utf8Len_text : ∀ v : Json, utf8Len v.text = v.size
  | null => rfl
  | bool true => rfl
  | bool false => rfl
  | num n => utf8Len_decimal n
  | str s => utf8Len_quoted s
  | arr items => by
    rw [text, size, utf8Len_cons, utf8Len_append, utf8Len_intercalate, sum_itemTexts items]
    show 1 + (_ + 1) = _
    omega
  | obj fields => by
    rw [text, size, utf8Len_cons, utf8Len_append, utf8Len_intercalate, sum_fieldTexts fields]
    show 1 + (_ + 1) = _
    omega

lemma sum_itemTexts : ∀ items : List Json,
    ((itemTexts items).map fun cs => utf8Len cs + 1).sum = itemsSize items
  | [] => rfl
  | v :: rest => by
    rw [itemTexts, itemsSize, List.map_cons, List.sum_cons, utf8Len_text v, sum_itemTexts rest]

lemma sum_fieldTexts : ∀ fields : List (String × Json),
    ((fieldTexts fields).map fun cs => utf8Len cs + 1).sum = fieldsSize fields
  | [] => rfl
  | (k, v) :: rest => by
    rw [fieldTexts, fieldsSize, List.map_cons, List.sum_cons, utf8Len_append, utf8Len_quoted,
      utf8Len_cons, utf8Len_text v, sum_fieldTexts rest, show ':'.utf8Size = 1 from rfl]
    omega

end

/-- **The size of a document** is the length of its compact text in bytes. -/
theorem length_bytes (v : Json) : v.bytes.length = v.size := by
  rw [bytes, length_utf8, utf8Len_text]

/-! ### Sizes of parts -/

@[simp] lemma size_num (n : ℤ) : (num n).size = decimalLen n := rfl

@[simp] lemma size_nat (n : ℕ) : (nat n).size = decimalLen n := rfl

@[simp] lemma size_str (s : String) : (str s).size = escapedLen s + 2 := rfl

@[simp] lemma size_arr (items : List Json) : (arr items).size = itemsSize items - 1 + 2 := rfl

@[simp] lemma size_obj (fields : List (String × Json)) :
    (obj fields).size = fieldsSize fields - 1 + 2 := rfl

@[simp] lemma fieldsSize_nil : fieldsSize [] = 0 := rfl

@[simp] lemma fieldsSize_cons (k : String) (v : Json) (rest : List (String × Json)) :
    fieldsSize ((k, v) :: rest) = escapedLen k + 2 + 1 + v.size + 1 + fieldsSize rest := rfl

@[simp] lemma size_tagged (tag : String) (v : Json) :
    (tagged tag v).size = escapedLen tag + v.size + 5 := by
  simp only [tagged, size_obj, fieldsSize_cons, fieldsSize_nil]
  omega

/-- The bytes of items of these sizes with commas and brackets. -/
def listed (sizes : List ℕ) : ℕ := (sizes.map (· + 1)).sum - 1 + 2

lemma size_arr_map {α : Type*} (f : α → Json) (items : List α) :
    (arr (items.map f)).size = listed (items.map fun item => (f item).size) := by
  have hsum : itemsSize (items.map f) =
      ((items.map fun item => (f item).size).map (· + 1)).sum := by
    induction items with
    | nil => rfl
    | cons item items ih => rw [List.map_cons, itemsSize, ih, List.map_cons, List.map_cons,
        List.sum_cons]
  rw [size_arr, hsum, listed]

lemma escapedLen_append (s t : String) : escapedLen (s ++ t) = escapedLen s + escapedLen t := by
  rw [escapedLen, String.toList_append, List.map_append, List.sum_append, escapedLen, escapedLen]

/-- A character that stands for itself in one byte. -/
@[simp] def plain (c : Char) : Bool :=
  0x20 ≤ c.toNat && c.toNat < 0x7f && c != '"' && c != '\\'

/-- A string of plain characters: with the simp set, the size of every literal. -/
@[simp] lemma escapedLen_plain {s : String} (h : s.toList.all plain) :
    escapedLen s = s.toList.length := by
  have hone : ∀ c, plain c → escapedSize c = 1 := by
    intro c hc
    simp only [plain, Bool.and_eq_true, decide_eq_true_eq, bne_iff_ne, ne_eq] at hc
    obtain ⟨⟨⟨hlow, hhigh⟩, hquote⟩, hslash⟩ := hc
    rw [escapedSize, if_neg, if_neg, utf8Size_eq_one]
    all_goals first | omega | simp [hquote, hslash]; omega
  rw [List.all_eq_true] at h
  unfold escapedLen
  generalize s.toList = cs at h
  induction cs with
  | nil => rfl
  | cons c cs ih =>
    rw [List.map_cons, List.sum_cons, hone c (h c List.mem_cons_self),
      ih fun d hd => h d (List.mem_cons_of_mem _ hd), List.length_cons]
    omega

/-- Numbers in a string are not escaped. -/
lemma escapedLen_toString (n : ℤ) : escapedLen (toString n) = decimalLen n := by
  have htext : (toString n).toList = decimal n := by
    rcases n with n | n
    · exact String.toList_ofList
    · change ("-" ++ String.ofList (Nat.toDigits 10 (n + 1))).toList = _
      rw [String.toList_append, String.toList_ofList, String.toList_ofList]
      rfl
  have hplain : (toString n).toList.all plain := by
    rw [htext, List.all_eq_true]
    intro c hc
    rcases mem_decimal hc with rfl | ⟨hge, hle⟩
    · decide
    · have hquote : c ≠ '"' := by
        rintro rfl
        exact absurd hge (by decide)
      have hslash : c ≠ '\\' := by
        rintro rfl
        exact absurd hle (by decide)
      simp only [plain, Bool.and_eq_true, decide_eq_true_eq, bne_iff_ne, ne_eq]
      exact ⟨⟨⟨by omega, by omega⟩, hquote⟩, hslash⟩
  rw [escapedLen_plain hplain, htext, decimalLen]

/-- An escaped character takes at most six bytes. -/
lemma escapedLen_le {s : String} {n : ℕ} (h : len s ≤ n) : escapedLen s ≤ 6 * n := by
  refine le_trans ?_ (Nat.mul_le_mul_left 6 h)
  have hle : ∀ c, escapedSize c ≤ 6 * c.utf8Size := by
    intro c
    have := Char.utf8Size_pos c
    unfold escapedSize
    split_ifs <;> omega
  rw [len_eq, escapedLen]
  generalize s.toList = cs
  induction cs with
  | nil => rfl
  | cons c cs ih =>
    have := hle c
    rw [List.map_cons, List.sum_cons, utf8Len_cons]
    omega

/-- Six bytes, also if it is one character of four. -/
lemma escapedLen_le_length (s : String) : escapedLen s ≤ 6 * s.toList.length := by
  have hle : ∀ c : Char, escapedSize c ≤ 6 := by
    intro c
    have := c.utf8Size_le_four
    unfold escapedSize
    split_ifs <;> omega
  rw [escapedLen]
  induction s.toList with
  | nil => rfl
  | cons c cs ih =>
    have := hle c
    rw [List.map_cons, List.sum_cons, List.length_cons]
    omega

lemma size_pos (v : Json) : 0 < v.size := by
  cases v with
  | bool b => cases b <;> decide
  | num n =>
    rcases n with n | n
    · exact Nat.length_toDigits_pos
    · exact Nat.succ_pos _
  | null => decide
  | str s => exact Nat.succ_pos _
  | arr items => exact Nat.succ_pos _
  | obj fields => exact Nat.succ_pos _

lemma size_bool_le (b : Bool) : (bool b).size ≤ 5 := by
  cases b <;> decide

lemma decimalLen_le {n k : ℕ} (hk : 0 < k) (h : n < 10 ^ k) : decimalLen n ≤ k :=
  (Nat.length_toDigits_le_iff (by omega) hk).mpr h

/-- An integer has one byte more for its sign. -/
lemma decimalLen_int_le {n : ℤ} {k : ℕ} (hk : 0 < k) (h : n.natAbs < 10 ^ k) :
    decimalLen n ≤ k + 1 := by
  rcases n with n | n
  · exact (decimalLen_le hk h).trans (by omega)
  · have := (Nat.length_toDigits_le_iff (b := 10) (by omega) hk).mpr h
    simp only [decimalLen, decimal, List.length_cons]
    exact Nat.succ_le_succ this

/-- What may be absent takes four bytes when it is. -/
lemma size_option_le {α : Type*} {f : α → Json} {o : Option α} {k : ℕ} (hk : 4 ≤ k)
    (h : ∀ a ∈ o, (f a).size ≤ k) : (option f o).size ≤ k := by
  cases o with
  | none => exact hk
  | some a => exact h a rfl

end Json

end TheKvm

import Mathlib.Data.Nat.Digits.Defs
import Mathlib.Tactic.IntervalCases
import TheKvm.Lib.Text

/-!
Hexadecimal text, two digits a byte, and what an integer parser makes of a pair of characters.

The parser takes a plus in front of a digit.
-/

namespace TheKvm.Hex

open Text

/-- `char::to_digit(16)`. -/
def toDigit (c : Char) : Option ℕ :=
  if 0x30 ≤ c.toNat ∧ c.toNat ≤ 0x39 then some (c.toNat - 0x30)
  else if 0x61 ≤ c.toNat ∧ c.toNat ≤ 0x66 then some (c.toNat - 0x57)
  else if 0x41 ≤ c.toNat ∧ c.toNat ≤ 0x46 then some (c.toNat - 0x37)
  else none

/-- One digit of `u8::from_str_radix(_, 16)`, with its overflow checks. -/
def pushDigit (value : ℕ) (c : Char) : Option ℕ :=
  (toDigit c).bind fun digit =>
    if value * 16 + digit < 256 then some (value * 16 + digit) else none

/-- `u8::from_str_radix(_, 16)`. -/
def fromStrRadix (src : List Char) : Option UInt8 :=
  if src = [] ∨ src = ['+'] ∨ src = ['-'] then none
  else
    ((if src.head? = some '+' then src.tail else src).foldlM pushDigit 0).map UInt8.ofNat

/-- `"{b:02x}"`. -/
def encodeByte (byte : UInt8) : List Char :=
  [Nat.digitChar (byte.toNat / 16), Nat.digitChar (byte.toNat % 16)]

def encode (bytes : List UInt8) : List Char := bytes.flatMap encodeByte

/-! ### Pairs -/

/-- A hexadecimal digit, behind another or a plus. -/
def IsPair (c d : Char) : Prop :=
  (isAsciiHexdigit c = true ∨ c = '+') ∧ isAsciiHexdigit d = true

inductive InPairs : List Char → Prop
  | nil : InPairs []
  | pair {c d : Char} {cs : List Char} (head : IsPair c d) (tail : InPairs cs) :
    InPairs (c :: d :: cs)

/-- What a character counts; a plus counts nothing. -/
def nibble (c : Char) : ℕ := (toDigit c).getD 0

/-- The bytes of a text in pairs. -/
def bytes : List Char → List UInt8
  | c :: d :: cs => UInt8.ofNat (nibble c * 16 + nibble d) :: bytes cs
  | _ => []

variable {c d : Char} {n : ℕ} {cs p r : List Char}

/-! ### Digits -/

lemma isSome_toDigit (c : Char) : (toDigit c).isSome = isAsciiHexdigit c := by
  rw [Bool.eq_iff_iff, toDigit, isAsciiHexdigit]
  simp only [Bool.or_eq_true, Bool.and_eq_true, decide_eq_true_eq]
  split_ifs with hdecimal hlower hupper
  · exact iff_of_true rfl (by omega)
  · exact iff_of_true rfl (by omega)
  · exact iff_of_true rfl (by omega)
  · exact iff_of_false Bool.false_ne_true (by omega)

lemma toDigit_eq_some (h : isAsciiHexdigit c = true) : toDigit c = some (nibble c) := by
  rw [← isSome_toDigit] at h
  obtain ⟨n, hn⟩ := Option.isSome_iff_exists.mp h
  rw [nibble, hn, Option.getD_some]

lemma toDigit_eq_none (h : isAsciiHexdigit c = false) : toDigit c = none := by
  rwa [← isSome_toDigit, Option.isSome_eq_false_iff, Option.isNone_iff_eq_none] at h

lemma nibble_lt (c : Char) : nibble c < 16 := by
  rw [nibble, toDigit]
  split_ifs
  · rw [Option.getD_some]
    omega
  · rw [Option.getD_some]
    omega
  · rw [Option.getD_some]
    omega
  · decide

lemma toNat_digitChar (hn : n < 16) :
    (Nat.digitChar n).toNat = if n < 10 then 0x30 + n else 0x57 + n := by
  interval_cases n <;> decide

lemma toDigit_digitChar (hn : n < 16) : toDigit (Nat.digitChar n) = some n := by
  interval_cases n <;> decide

lemma isLowerHexdigit_digitChar (hn : n < 16) : isLowerHexdigit (Nat.digitChar n) = true := by
  interval_cases n <;> decide

/-- What a digit counts is written in lower case. -/
lemma digitChar_nibble (h : isAsciiHexdigit c = true) : Nat.digitChar (nibble c) = c.toLower := by
  apply Char.toNat_inj.mp
  rw [toNat_digitChar (nibble_lt c), toNat_toLower]
  simp only [isAsciiHexdigit, Bool.or_eq_true, Bool.and_eq_true, decide_eq_true_eq] at h
  rw [nibble, toDigit]
  split_ifs with hdecimal hten hupper hlower
  all_goals simp only [Option.getD_some, Option.getD_none] at *
  all_goals omega

/-! ### One pair -/

lemma pushDigit_eq (hn : n < 16) (c : Char) :
    pushDigit n c = if isAsciiHexdigit c then some (n * 16 + nibble c) else none := by
  have := nibble_lt c
  rw [pushDigit]
  by_cases h : isAsciiHexdigit c = true
  · rw [toDigit_eq_some h, if_pos h, Option.bind_some, if_pos (by omega)]
  · rw [toDigit_eq_none (Bool.eq_false_of_not_eq_true h), if_neg h]
    rfl

/-- Two bytes that are one character are no number. -/
lemma fromStrRadix_single (h : c.utf8Size = 2) : fromStrRadix [c] = none := by
  have hplus : c ≠ '+' := by
    rintro rfl
    exact absurd h (by decide)
  have hdigit : ¬isAsciiHexdigit c = true := by
    intro hc
    rw [utf8Size_eq_one (toNat_lt_of_isAsciiHexdigit hc)] at h
    omega
  have hhead : ¬[c].head? = some '+' := fun h => hplus (Option.some.inj h)
  rw [fromStrRadix, if_neg hhead, List.foldlM_cons, pushDigit_eq (by decide), if_neg hdigit,
    ite_eq_left_iff]
  exact fun _ => rfl

lemma fromStrRadix_pair (c d : Char) {byte : UInt8} :
    fromStrRadix [c, d] = some byte ↔
      IsPair c d ∧ byte = UInt8.ofNat (nibble c * 16 + nibble d) := by
  have hsign : ¬([c, d] = [] ∨ [c, d] = ['+'] ∨ [c, d] = ['-']) := by simp
  rw [fromStrRadix, if_neg hsign]
  by_cases hplus : c = '+'
  · subst hplus
    have hzero : nibble '+' = 0 := by decide
    have hhead : ['+', d].head? = some '+' := rfl
    rw [if_pos hhead, List.tail_cons, List.foldlM_cons, pushDigit_eq (by decide), IsPair, hzero]
    by_cases hd : isAsciiHexdigit d = true
    · rw [if_pos hd]
      exact ⟨fun h => ⟨⟨.inr rfl, hd⟩, (Option.some.inj h).symm⟩, fun h => congrArg some h.2.symm⟩
    · rw [if_neg hd]
      exact iff_of_false nofun fun h => hd h.1.2
  · have hhead : ¬[c, d].head? = some '+' := fun h => hplus (Option.some.inj h)
    rw [if_neg hhead, List.foldlM_cons, pushDigit_eq (by decide), IsPair]
    by_cases hc : isAsciiHexdigit c = true
    · rw [if_pos hc, Nat.zero_mul, Nat.zero_add]
      simp only [bind, Option.bind]
      rw [List.foldlM_cons, pushDigit_eq (nibble_lt c)]
      by_cases hd : isAsciiHexdigit d = true
      · rw [if_pos hd]
        exact ⟨fun h => ⟨⟨.inl hc, hd⟩, (Option.some.inj h).symm⟩,
          fun h => congrArg some h.2.symm⟩
      · rw [if_neg hd]
        exact iff_of_false nofun fun h => hd h.1.2
    · rw [if_neg hc]
      exact iff_of_false nofun fun h => h.1.1.elim hc hplus

/-- What two bytes are as a number, if they are whole characters. -/
lemma fromStrRadix_eq_some {pair : List Char} (h : utf8Len pair = 2) {byte : UInt8} :
    fromStrRadix pair = some byte ↔
      ∃ c d, pair = [c, d] ∧ IsPair c d ∧ byte = UInt8.ofNat (nibble c * 16 + nibble d) := by
  match pair, h with
  | [c], h =>
    rw [utf8Len_cons, utf8Len_nil] at h
    rw [fromStrRadix_single h]
    exact iff_of_false nofun (by simp)
  | [c, d], _ =>
    rw [fromStrRadix_pair]
    constructor
    · rintro ⟨hpair, hbyte⟩
      exact ⟨c, d, rfl, hpair, hbyte⟩
    · rintro ⟨c', d', heq, hpair, hbyte⟩
      obtain ⟨rfl, rfl⟩ : c = c' ∧ d = d' := by simpa using heq
      exact ⟨hpair, hbyte⟩
  | c :: d :: e :: cs, h =>
    have hc := c.utf8Size_pos
    have hd := d.utf8Size_pos
    have he := e.utf8Size_pos
    simp only [utf8Len_cons] at h
    omega

/-! ### Texts in pairs -/

lemma IsPair.ascii (h : IsPair c d) : c.utf8Size = 1 ∧ d.utf8Size = 1 := by
  obtain ⟨hc, hd⟩ := h
  refine ⟨?_, utf8Size_eq_one (toNat_lt_of_isAsciiHexdigit hd)⟩
  rcases hc with hc | rfl
  · exact utf8Size_eq_one (toNat_lt_of_isAsciiHexdigit hc)
  · decide

lemma even_utf8Len (h : InPairs cs) : Even (utf8Len cs) := by
  induction h with
  | nil => exact Even.zero
  | pair head _ ih =>
    obtain ⟨hc, hd⟩ := head.ascii
    obtain ⟨k, hk⟩ := ih
    refine ⟨k + 1, ?_⟩
    rw [utf8Len_cons, utf8Len_cons, hc, hd, hk]
    omega

/-- Hexadecimal digits, as many as make pairs. -/
lemma inPairs_of_digits : (cs : List Char) → Even cs.length →
    (∀ c ∈ cs, isAsciiHexdigit c = true) → InPairs cs
  | [], _, _ => .nil
  | [_], h, _ => absurd h (by rw [List.length_singleton]; decide)
  | c :: d :: cs, h, hdigits => by
    rw [List.length_cons, List.length_cons, Nat.even_add_one, Nat.even_add_one, not_not] at h
    refine .pair ⟨.inl (hdigits c (by simp)), hdigits d (by simp)⟩ ?_
    exact inPairs_of_digits cs h fun e he => hdigits e (by simp [he])

/-- Pairs are hexadecimal throughout unless there is a plus. -/
lemma digits_of_inPairs (h : InPairs cs) (hplus : '+' ∉ cs) :
    ∀ c ∈ cs, isAsciiHexdigit c = true := by
  induction h with
  | nil => nofun
  | pair head _ ih =>
    intro e he
    rcases List.mem_cons.mp he with rfl | he
    · exact head.1.resolve_right fun heq => hplus (heq ▸ List.mem_cons_self)
    rcases List.mem_cons.mp he with rfl | he
    · exact head.2
    · exact ih (fun hmem => hplus (by simp [hmem])) e he

/-- The bytes of a text are written as the text in lower case. -/
lemma encode_bytes (h : InPairs cs) (hdigits : ∀ c ∈ cs, isAsciiHexdigit c = true) :
    encode (bytes cs) = cs.map Char.toLower := by
  induction h with
  | nil => rfl
  | @pair c d cs head _ ih =>
    have hc := nibble_lt c
    have hd := nibble_lt d
    have hbyte : (UInt8.ofNat (nibble c * 16 + nibble d)).toNat = nibble c * 16 + nibble d := by
      rw [UInt8.toNat_ofNat']
      omega
    have hdiv : (nibble c * 16 + nibble d) / 16 = nibble c := by omega
    have hmod : (nibble c * 16 + nibble d) % 16 = nibble d := by omega
    have ih := ih fun e he => hdigits e (by simp [he])
    rw [encode] at ih
    rw [bytes, encode, List.flatMap_cons, encodeByte, hbyte, hdiv, hmod, ih,
      digitChar_nibble (hdigits c (by simp)), digitChar_nibble (hdigits d (by simp))]
    rfl

lemma encode_cons (byte : UInt8) (l : List UInt8) :
    encode (byte :: l) = Nat.digitChar (byte.toNat / 16) :: Nat.digitChar (byte.toNat % 16) ::
      encode l := rfl

lemma isLowerHexdigit_encode (l : List UInt8) : ∀ c ∈ encode l, isLowerHexdigit c = true := by
  induction l with
  | nil => nofun
  | cons byte l ih =>
    have hbyte : byte.toNat < 256 := byte.toNat_lt
    intro c hc
    rw [encode_cons] at hc
    rcases List.mem_cons.mp hc with rfl | hc
    · exact isLowerHexdigit_digitChar (by omega)
    rcases List.mem_cons.mp hc with rfl | hc
    · exact isLowerHexdigit_digitChar (by omega)
    · exact ih c hc

/-- **Round trip.** Bytes are written in pairs, and are what the pairs spell. -/
theorem bytes_encode (l : List UInt8) : InPairs (encode l) ∧ bytes (encode l) = l := by
  induction l with
  | nil => exact ⟨.nil, rfl⟩
  | cons byte l ih =>
    have hbyte : byte.toNat < 256 := byte.toNat_lt
    have hhigh : toDigit (Nat.digitChar (byte.toNat / 16)) = some (byte.toNat / 16) :=
      toDigit_digitChar (by omega)
    have hlow : toDigit (Nat.digitChar (byte.toNat % 16)) = some (byte.toNat % 16) :=
      toDigit_digitChar (by omega)
    have hsum : byte.toNat / 16 * 16 + byte.toNat % 16 = byte.toNat := by omega
    rw [encode_cons]
    refine ⟨.pair ⟨.inl ?_, ?_⟩ ih.1, ?_⟩
    · rw [← isSome_toDigit, hhigh]
      rfl
    · rw [← isSome_toDigit, hlow]
      rfl
    · rw [bytes, nibble, nibble, hhigh, hlow, Option.getD_some, Option.getD_some, hsum, ih.2,
        UInt8.ofNat_toNat]

end TheKvm.Hex

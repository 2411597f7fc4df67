import TheKvm.Lib.Gather
import TheKvm.Lib.Slice

/-!
Reading bytes as text where they may not be text.

What does not decode is replaced. Bytes that are a text's own are read back, also in chunks,
as long as no character is cut in two.
-/

namespace TheKvm.Text

/-- `char::REPLACEMENT_CHARACTER`. -/
def replacement : Char := '\uFFFD'

/-- Whether the second byte may follow the first in an encoding of three or four bytes. -/
def goesOn (first second : UInt8) : Bool :=
  if first = 0xe0 then 0xa0 ≤ second && second ≤ 0xbf
  else if first = 0xed then 0x80 ≤ second && second ≤ 0x9f
  else if 0xe1 ≤ first && first ≤ 0xef then 0x80 ≤ second && second ≤ 0xbf
  else if first = 0xf0 then 0x90 ≤ second && second ≤ 0xbf
  else if first = 0xf4 then 0x80 ≤ second && second ≤ 0x8f
  else if 0xf1 ≤ first && first ≤ 0xf3 then 0x80 ≤ second && second ≤ 0xbf
  else false

/-- How many bytes after the first are replaced together with it. -/
def badTail (first : UInt8) : List UInt8 → ℕ
  | [] => 0
  | [second] => if goesOn first second then 1 else 0
  | second :: third :: _ =>
    if goesOn first second then
      if 0xf0 ≤ first && 0x80 ≤ third && third ≤ 0xbf then 2 else 1
    else 0

/-- `String::from_utf8_lossy`. -/
def fromUtf8Lossy : List UInt8 → List Char
  | [] => []
  | first :: rest =>
    match (first :: rest).toByteArray.utf8DecodeChar? 0 with
    | some c => c :: fromUtf8Lossy (rest.drop (c.utf8Size - 1))
    | none => replacement :: fromUtf8Lossy (rest.drop (badTail first rest))
termination_by bytes => bytes.length

variable {cs : List Char} {n : ℕ}

/-- A character is read back, and what follows is read on. -/
lemma fromUtf8Lossy_append (c : Char) (bytes : List UInt8) :
    fromUtf8Lossy (String.utf8EncodeChar c ++ bytes) = c :: fromUtf8Lossy bytes := by
  have hdecode : (String.utf8EncodeChar c ++ bytes).toByteArray.utf8DecodeChar? 0 = some c := by
    rw [List.toByteArray_append]
    exact ByteArray.utf8DecodeChar?_utf8EncodeChar_append
  have hsize := String.length_utf8EncodeChar c
  rcases hencode : String.utf8EncodeChar c with _ | ⟨first, rest⟩
  · have := c.utf8Size_pos
    rw [hencode, List.length_nil] at hsize
    omega
  rw [hencode] at hdecode hsize
  have hrest : rest.length = c.utf8Size - 1 := by
    rw [List.length_cons] at hsize
    omega
  rw [List.cons_append] at hdecode ⊢
  rw [fromUtf8Lossy, hdecode]
  simp only
  rw [← hrest, List.drop_left]

/-- A text's own bytes are read back. -/
lemma fromUtf8Lossy_utf8 (cs : List Char) : fromUtf8Lossy (utf8 cs) = cs := by
  induction cs with
  | nil => rw [utf8, List.flatMap_nil, fromUtf8Lossy]
  | cons c cs ih => rw [utf8, List.flatMap_cons, fromUtf8Lossy_append, ← utf8, ih]

lemma utf8_append (a b : List Char) : utf8 (a ++ b) = utf8 a ++ utf8 b := List.flatMap_append

/-- Every multiple of `n` within the text is at a character boundary. -/
def Aligned (n : ℕ) (cs : List Char) : Prop :=
  ∀ k, k * n ≤ utf8Len cs → isCharBoundary cs (k * n) = true

lemma Aligned.of_ascii (h : ∀ c ∈ cs, c.toNat < 0x80) : Aligned n cs := by
  intro k hk
  rw [utf8Len_ascii h] at hk
  refine isCharBoundary_iff.mpr ⟨cs.take (k * n), cs.drop (k * n),
    (List.take_append_drop _ _).symm, ?_⟩
  rw [utf8Len_ascii fun c hc => h c (List.mem_of_mem_take hc), List.length_take]
  omega

lemma isCharBoundary_append (a b : List Char) (i : ℕ) :
    isCharBoundary (a ++ b) (utf8Len a + i) = true ↔ isCharBoundary b i = true := by
  rw [isCharBoundary_iff, isCharBoundary_iff]
  constructor
  · rintro ⟨c, d, h, hlen⟩
    rcases List.append_eq_append_iff.mp h with ⟨e, rfl, rfl⟩ | ⟨e, rfl, rfl⟩
    · exact ⟨e, d, rfl, by rw [utf8Len_append] at hlen; omega⟩
    · rw [utf8Len_append] at hlen
      exact ⟨[], b, rfl, by rw [utf8Len_nil]; omega⟩
  · rintro ⟨c, d, rfl, rfl⟩
    exact ⟨a ++ c, d, (List.append_assoc _ _ _).symm, utf8Len_append _ _⟩

/-- The first chunk of an aligned text is its first characters' bytes. -/
lemma Aligned.exists_first (h : Aligned n cs) :
    ∃ a b, cs = a ++ b ∧ (utf8 cs).take n = utf8 a ∧ (utf8 cs).drop n = utf8 b ∧ Aligned n b := by
  rcases Nat.lt_or_ge (utf8Len cs) n with hshort | hlong
  · rw [← length_utf8] at hshort
    refine ⟨cs, [], (List.append_nil _).symm, List.take_of_length_le hshort.le,
      List.drop_of_length_le hshort.le, ?_⟩
    intro k hk
    rw [utf8Len_nil, Nat.le_zero] at hk
    rw [hk]
    exact isCharBoundary_zero _
  · have hboundary := h 1 (by rwa [Nat.one_mul])
    rw [Nat.one_mul, isCharBoundary_iff] at hboundary
    obtain ⟨a, b, rfl, hlen⟩ := hboundary
    have hbytes := length_utf8 a
    rw [hlen] at hbytes
    refine ⟨a, b, rfl, ?_, ?_, ?_⟩
    · rw [utf8_append, ← hbytes, List.take_left]
    · rw [utf8_append, ← hbytes, List.drop_left]
    · intro k hk
      rw [← isCharBoundary_append a, hlen, Nat.add_comm, ← Nat.succ_mul]
      apply h
      rw [utf8Len_append, hlen, Nat.succ_mul]
      omega

/-- **Chunks of bytes**. The bytes of an aligned text are read back chunk by chunk. -/
theorem Aligned.flatten_chunks (hn : 0 < n) (h : Aligned n cs) :
    ((Gather.chunks n (utf8 cs)).map fromUtf8Lossy).flatten = cs := by
  induction hm : (utf8 cs).length using Nat.strong_induction_on generalizing cs with
  | _ m ih =>
    by_cases hnil : utf8 cs = []
    · have hcs : cs = [] := by rw [← fromUtf8Lossy_utf8 cs, hnil, fromUtf8Lossy]
      rw [hnil, Gather.chunks_nil hn, hcs]
      rfl
    · obtain ⟨a, b, hab, htake, hdrop, hb⟩ := h.exists_first
      have hpos := List.length_pos_of_ne_nil hnil
      have hshort : (utf8 b).length < m := by
        rw [← hdrop, List.length_drop]
        omega
      rw [Gather.chunks_cons hn hnil, htake, hdrop, List.map_cons, List.flatten_cons,
        fromUtf8Lossy_utf8, ih _ hshort hb rfl, hab]

/-- There are no more characters than bytes. -/
lemma length_fromUtf8Lossy_le (bytes : List UInt8) :
    (fromUtf8Lossy bytes).length ≤ bytes.length := by
  induction bytes using fromUtf8Lossy.induct with
  | case1 => simp [fromUtf8Lossy]
  | case2 first rest c hdecode ih =>
    rw [fromUtf8Lossy, hdecode, List.length_cons, List.length_cons]
    rw [List.length_drop] at ih
    omega
  | case3 first rest hdecode ih =>
    rw [fromUtf8Lossy, hdecode, List.length_cons, List.length_cons]
    rw [List.length_drop] at ih
    omega

end TheKvm.Text

import TheKvm.Lib.Text

/-!
Slices of a string: byte offsets, character boundaries, and cutting a text into pieces of
bounded length.
-/

namespace TheKvm.Text

/-- `str::split_at`, or nothing where the offset is inside a character or past the end. -/
def splitAt : List Char → ℕ → Option (List Char × List Char)
  | cs, 0 => some ([], cs)
  | [], _ + 1 => none
  | c :: cs, i + 1 =>
    if c.utf8Size ≤ i + 1 then (splitAt cs (i + 1 - c.utf8Size)).map fun p => (c :: p.1, p.2)
    else none

/-- `str::is_char_boundary`. -/
def isCharBoundary (cs : List Char) (i : ℕ) : Bool := (splitAt cs i).isSome

/-- Step back to a boundary. -/
def floorBoundary (cs : List Char) : ℕ → ℕ
  | 0 => 0
  | i + 1 => if isCharBoundary cs (i + 1) then i + 1 else floorBoundary cs i

/-- `&s[start..stop]`, or nothing where an offset is off a boundary or they are out of order. -/
def slice (cs : List Char) (start stop : ℕ) : Option (List Char) :=
  if stop < start then none
  else (splitAt cs start).bind fun parts => (splitAt parts.2 (stop - start)).map Prod.fst

/-- `str::rsplit_once`: what is before and behind the last separator. -/
def rsplitOnce (sep : Char) : List Char → Option (List Char × List Char)
  | [] => none
  | c :: cs =>
    match rsplitOnce sep cs with
    | some (a, b) => some (c :: a, b)
    | none => if c = sep then some ([], cs) else none

variable {cs a b : List Char} {i j limit : ℕ}

lemma splitAt_zero (cs : List Char) : splitAt cs 0 = some ([], cs) := by rw [splitAt]

lemma splitAt_eq_some : splitAt cs i = some (a, b) ↔ cs = a ++ b ∧ utf8Len a = i := by
  induction cs, i using splitAt.induct generalizing a with
  | case1 cs =>
    rw [splitAt_zero, Option.some.injEq, Prod.mk.injEq, utf8Len_eq_zero]
    constructor
    · rintro ⟨rfl, rfl⟩
      exact ⟨rfl, rfl⟩
    · rintro ⟨rfl, rfl⟩
      exact ⟨rfl, rfl⟩
  | case2 i =>
    refine iff_of_false nofun ?_
    rintro ⟨h, hlen⟩
    obtain ⟨rfl, -⟩ := List.nil_eq_append_iff.mp h
    cases hlen
  | case3 c cs i hle ih =>
    rw [splitAt, if_pos hle]
    simp only [Option.map_eq_some_iff, Prod.mk.injEq, Prod.exists]
    constructor
    · rintro ⟨a', b', h, rfl, rfl⟩
      obtain ⟨rfl, hlen⟩ := ih.mp h
      exact ⟨rfl, by rw [utf8Len_cons]; omega⟩
    · rintro ⟨h, hlen⟩
      cases a with
      | nil => cases hlen
      | cons d a =>
        obtain ⟨rfl, rfl⟩ := List.cons_eq_cons.mp h
        rw [utf8Len_cons] at hlen
        exact ⟨a, b, ih.mpr ⟨rfl, by omega⟩, rfl, rfl⟩
  | case4 c cs i hlong =>
    rw [splitAt, if_neg hlong]
    refine iff_of_false nofun ?_
    rintro ⟨h, hlen⟩
    cases a with
    | nil => cases hlen
    | cons d a =>
      obtain ⟨rfl, rfl⟩ := List.cons_eq_cons.mp h
      rw [utf8Len_cons] at hlen
      omega

/-- A slice behind a part of the text. -/
lemma slice_append (h : utf8Len a = i) (n : ℕ) :
    slice (a ++ b) i (i + n) = (splitAt b n).map Prod.fst := by
  rw [slice, if_neg (by omega), splitAt_eq_some.mpr ⟨rfl, h⟩, Option.bind_some,
    Nat.add_sub_cancel_left]

lemma rsplitOnce_eq_none {sep : Char} (h : sep ∉ cs) : rsplitOnce sep cs = none := by
  induction cs with
  | nil => rfl
  | cons c cs ih =>
    have hc : c ≠ sep := fun heq => h (heq ▸ List.mem_cons_self)
    rw [rsplitOnce, ih fun hmem => h (List.mem_cons_of_mem _ hmem)]
    exact if_neg hc

/-- A separator that is not repeated is the last one. -/
lemma rsplitOnce_append {sep : Char} (a : List Char) (h : sep ∉ b) :
    rsplitOnce sep (a ++ sep :: b) = some (a, b) := by
  induction a with
  | nil =>
    rw [List.nil_append, rsplitOnce, rsplitOnce_eq_none h]
    exact if_pos rfl
  | cons c a ih => rw [List.cons_append, rsplitOnce, ih]

lemma isCharBoundary_iff : isCharBoundary cs i = true ↔ ∃ a b, cs = a ++ b ∧ utf8Len a = i := by
  rw [isCharBoundary, Option.isSome_iff_exists]
  constructor
  · rintro ⟨⟨a, b⟩, h⟩
    exact ⟨a, b, splitAt_eq_some.mp h⟩
  · rintro ⟨a, b, h⟩
    exact ⟨(a, b), splitAt_eq_some.mpr h⟩

lemma isCharBoundary_zero (cs : List Char) : isCharBoundary cs 0 = true :=
  isCharBoundary_iff.mpr ⟨[], cs, rfl, rfl⟩

lemma floorBoundary_le (cs : List Char) (i : ℕ) : floorBoundary cs i ≤ i := by
  induction i with
  | zero => exact le_rfl
  | succ i ih =>
    rw [floorBoundary]
    split_ifs
    · exact le_rfl
    · omega

lemma isCharBoundary_floor (cs : List Char) (i : ℕ) :
    isCharBoundary cs (floorBoundary cs i) = true := by
  induction i with
  | zero => exact isCharBoundary_zero cs
  | succ i ih =>
    rw [floorBoundary]
    split_ifs with h
    · exact h
    · exact ih

/-- No boundary is stepped over. -/
lemma le_floorBoundary (hj : isCharBoundary cs j = true) (h : j ≤ i) : j ≤ floorBoundary cs i := by
  induction i with
  | zero => exact h
  | succ i ih =>
    rw [floorBoundary]
    split_ifs with hi
    · exact h
    · apply ih
      rcases Nat.lt_or_ge i j with hlt | hge
      · obtain rfl : j = i + 1 := by omega
        exact absurd hj hi
      · exact hge

/-! ### Cutting a text -/

/-- Slice a text from its start on, each time at the offset `cut` finds in what is left. Nothing
comes back where the offset is off a boundary, or where the loop would stand still. -/
def slices (cut : List Char → ℕ) (cs : List Char) : Option (List (List Char)) :=
  if cs = [] then some []
  else
    match _h : splitAt cs (cut cs) with
    | none => none
    | some ([], _) => none
    | some (c :: slice, rest) => (slices cut rest).map ((c :: slice) :: ·)
termination_by cs.length
decreasing_by
  rw [(splitAt_eq_some.mp _h).1]
  simp only [List.cons_append, List.length_cons, List.length_append]
  omega

lemma slices_cons {cut : List Char → ℕ} {slice rest : List Char} (hne : slice ≠ [])
    (hcut : utf8Len slice = cut (slice ++ rest)) :
    slices cut (slice ++ rest) = (slices cut rest).map (slice :: ·) := by
  obtain ⟨c, tail, rfl⟩ := List.exists_cons_of_ne_nil hne
  rw [slices, if_neg (by simp)]
  split
  · rename_i h
    rw [splitAt_eq_some.mpr ⟨rfl, hcut⟩] at h
    cases h
  · rename_i h
    rw [splitAt_eq_some.mpr ⟨rfl, hcut⟩] at h
    cases h
  · rename_i h
    rw [splitAt_eq_some.mpr ⟨rfl, hcut⟩] at h
    simp only [Option.some.injEq, Prod.mk.injEq, List.cons.injEq] at h
    obtain ⟨⟨rfl, rfl⟩, rfl⟩ := h
    rfl

/-- Pieces with something in them are no more than the bytes. -/
lemma length_le_utf8Len_flatten {chunks : List (List Char)} (h : ∀ chunk ∈ chunks, chunk ≠ []) :
    chunks.length ≤ utf8Len chunks.flatten := by
  induction chunks with
  | nil => exact Nat.zero_le _
  | cons chunk chunks ih =>
    have htail := ih fun c hc => h c (List.mem_cons_of_mem _ hc)
    obtain ⟨c, rest, rfl⟩ := List.exists_cons_of_ne_nil (h chunk List.mem_cons_self)
    have hpos := c.utf8Size_pos
    rw [List.flatten_cons, List.length_cons, utf8Len_append, utf8Len_cons]
    omega

/-- Where each offset is a boundary within the limit, and not the start, the slices come back and
make up the text. -/
theorem exists_slices {cut : List Char → ℕ} {P : List Char → Prop}
    (hsuffix : ∀ {a b}, P (a ++ b) → P b)
    (hcut : ∀ {cs}, P cs → cs ≠ [] →
      isCharBoundary cs (cut cs) = true ∧ 0 < cut cs ∧ cut cs ≤ limit)
    (cs : List Char) (hP : P cs) :
    ∃ chunks, slices cut cs = some chunks ∧ chunks.flatten = cs ∧
      ∀ chunk ∈ chunks, chunk ≠ [] ∧ utf8Len chunk ≤ limit := by
  induction hn : cs.length using Nat.strong_induction_on generalizing cs with
  | _ n ih =>
    by_cases hnil : cs = []
    · exact ⟨[], by rw [slices, if_pos hnil], hnil.symm, nofun⟩
    obtain ⟨hboundary, hpos, hle⟩ := hcut hP hnil
    obtain ⟨slice, rest, rfl, hlen⟩ := isCharBoundary_iff.mp hboundary
    have hne : slice ≠ [] := by
      rintro rfl
      rw [← hlen, utf8Len_nil] at hpos
      omega
    have hshort : rest.length < n := by
      have := List.length_pos_of_ne_nil hne
      rw [List.length_append] at hn
      omega
    obtain ⟨chunks, hchunks, hflat, hall⟩ := ih _ hshort rest (hsuffix hP) rfl
    refine ⟨slice :: chunks, by rw [slices_cons hne hlen, hchunks]; rfl, ?_, ?_⟩
    · rw [List.flatten_cons, hflat]
    · intro chunk hchunk
      rcases List.mem_cons.mp hchunk with rfl | hchunk
      · exact ⟨hne, by omega⟩
      · exact hall chunk hchunk

/-- The last boundary within the limit. -/
def textCut (limit : ℕ) (cs : List Char) : ℕ := floorBoundary cs (min limit (utf8Len cs))

/-- The limit itself, or the end. -/
def byteCut (limit : ℕ) (cs : List Char) : ℕ := min limit (utf8Len cs)

/-- A character has at most four bytes, so there is a boundary to find. -/
lemma textCut_spec (hlimit : 4 ≤ limit) (hne : cs ≠ []) :
    isCharBoundary cs (textCut limit cs) = true ∧ 0 < textCut limit cs ∧
      textCut limit cs ≤ limit := by
  refine ⟨isCharBoundary_floor _ _, ?_, (floorBoundary_le _ _).trans (Nat.min_le_left _ _)⟩
  obtain ⟨c, rest, rfl⟩ := List.exists_cons_of_ne_nil hne
  have hfour := c.utf8Size_le_four
  have hpos := c.utf8Size_pos
  have hfirst : isCharBoundary (c :: rest) c.utf8Size = true :=
    isCharBoundary_iff.mpr ⟨[c], rest, rfl, by simp⟩
  have hle : c.utf8Size ≤ min limit (utf8Len (c :: rest)) := by
    rw [utf8Len_cons]
    omega
  calc 0 < c.utf8Size := hpos
    _ ≤ textCut limit (c :: rest) := le_floorBoundary hfirst hle

/-- In ASCII every offset is a boundary. -/
lemma byteCut_spec (hlimit : 0 < limit) (hascii : ∀ c ∈ cs, c.toNat < 0x80) (hne : cs ≠ []) :
    isCharBoundary cs (byteCut limit cs) = true ∧ 0 < byteCut limit cs ∧
      byteCut limit cs ≤ limit := by
  have hlen := utf8Len_ascii hascii
  have hpos := List.length_pos_of_ne_nil hne
  refine ⟨isCharBoundary_iff.mpr ⟨cs.take (byteCut limit cs), cs.drop (byteCut limit cs),
    (List.take_append_drop _ _).symm, ?_⟩, ?_, Nat.min_le_left _ _⟩
  · rw [utf8Len_ascii fun c hc => hascii c (List.mem_of_mem_take hc), List.length_take, byteCut]
    omega
  · rw [byteCut]
    omega

/-- Any text is sliced at its boundaries. -/
lemma exists_textSlices (hlimit : 4 ≤ limit) (text : List Char) :
    ∃ chunks, slices (textCut limit) text = some chunks ∧ chunks.flatten = text ∧
      ∀ chunk ∈ chunks, chunk ≠ [] ∧ utf8Len chunk ≤ limit :=
  exists_slices (P := fun _ => True) (fun _ => trivial)
    (fun _ hne => textCut_spec hlimit hne) text trivial

/-- A text in ASCII is sliced anywhere. -/
lemma exists_byteSlices (hlimit : 0 < limit) {text : List Char}
    (hascii : ∀ c ∈ text, c.toNat < 0x80) :
    ∃ chunks, slices (byteCut limit) text = some chunks ∧ chunks.flatten = text ∧
      ∀ chunk ∈ chunks, chunk ≠ [] ∧ utf8Len chunk ≤ limit :=
  exists_slices (P := fun cs => ∀ c ∈ cs, c.toNat < 0x80)
    (fun h c hc => h c (List.mem_append_right _ hc))
    (fun h hne => byteCut_spec hlimit h hne) text hascii

/-! ### Longest pieces -/

/-- A text in pieces from its start on, each as long as the limit lets it be. -/
inductive Pieces (limit : ℕ) : List Char → List (List Char) → Prop
  | nil : Pieces limit [] []
  | cons {piece rest : List Char} {pieces : List (List Char)} (hne : piece ≠ [])
      (hle : utf8Len piece ≤ limit)
      (hmax : ∀ c ∈ rest.head?, limit < utf8Len piece + c.utf8Size)
      (hrest : Pieces limit rest pieces) : Pieces limit (piece ++ rest) (piece :: pieces)

/-- A text within the limit is one piece. -/
lemma Pieces.single (hne : cs ≠ []) (hle : utf8Len cs ≤ limit) : Pieces limit cs [cs] := by
  have h : Pieces limit (cs ++ []) [cs] := .cons hne hle (by simp) .nil
  rwa [List.append_nil] at h

/-- Of two first pieces of a text, the one the limit stops is not the shorter. -/
lemma append_eq_of_longest {piece rest more rest' : List Char}
    (hmax : ∀ c ∈ rest.head?, limit < utf8Len piece + c.utf8Size)
    (hle : utf8Len (piece ++ more) ≤ limit) (h : rest = more ++ rest') : more = [] := by
  rcases more with _ | ⟨c, more⟩
  · rfl
  · have := hmax c (by rw [h]; rfl)
    rw [utf8Len_append, utf8Len_cons] at hle
    omega

/-- There is one way to cut a text into longest pieces. -/
theorem Pieces.unique {pieces pieces' : List (List Char)} (h : Pieces limit cs pieces)
    (h' : Pieces limit cs pieces') : pieces = pieces' := by
  induction h generalizing pieces' with
  | nil =>
    generalize hcs : ([] : List Char) = cs at h'
    cases h' with
    | nil => rfl
    | cons hne => exact absurd (List.append_eq_nil_iff.mp hcs.symm).1 hne
  | @cons piece rest pieces hne hle hmax hrest ih =>
    generalize hcs : piece ++ rest = cs at h'
    cases h' with
    | nil => exact absurd (List.append_eq_nil_iff.mp hcs).1 hne
    | @cons piece' rest' pieces' hne' hle' hmax' hrest' =>
      obtain ⟨rfl, rfl⟩ : piece = piece' ∧ rest = rest' := by
        rcases List.append_eq_append_iff.mp hcs with ⟨more, rfl, hmore⟩ | ⟨more, rfl, hmore⟩
        · obtain rfl := append_eq_of_longest hmax hle' hmore
          exact ⟨(List.append_nil _).symm, hmore⟩
        · obtain rfl := append_eq_of_longest hmax' hle hmore
          exact ⟨List.append_nil _, hmore.symm⟩
      rw [ih hrest']

/-- The last boundary within the limit leaves no room for the next character. -/
lemma lt_of_textCut {slice rest : List Char} (hcut : utf8Len slice = textCut limit (slice ++ rest))
    (c : Char) (hc : c ∈ rest.head?) : limit < utf8Len slice + c.utf8Size := by
  obtain ⟨rest, rfl⟩ : ∃ rest', rest = c :: rest' := by
    cases rest with
    | nil => cases hc
    | cons d rest =>
      obtain rfl := Option.some.inj hc
      exact ⟨rest, rfl⟩
  by_contra hroom
  have hpos := c.utf8Size_pos
  have hboundary : isCharBoundary (slice ++ c :: rest) (utf8Len slice + c.utf8Size) = true :=
    isCharBoundary_iff.mpr ⟨slice ++ [c], rest, by simp, by simp⟩
  have hle : utf8Len slice + c.utf8Size ≤ textCut limit (slice ++ c :: rest) := by
    refine le_floorBoundary hboundary ?_
    rw [utf8Len_append, utf8Len_cons]
    omega
  omega

end TheKvm.Text

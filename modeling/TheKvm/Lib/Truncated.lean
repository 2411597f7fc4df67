import Mathlib.Data.List.Infix
import Mathlib.Tactic.Common

/-!
A stream of frames that is cut at any place, and read frame by frame.

A frame starts with a header of a known length. A reader that takes a cut inside a header for the
end of the stream reads every cut right but those.
-/

namespace TheKvm.Truncated

variable {α β ε : Type*} (frame : α → List β)

/-! ### Where a cut is -/

/-- The messages whose frames lie before the cut. -/
def complete : List α → ℕ → List α
  | [], _ => []
  | m :: ms, n =>
    if (frame m).length ≤ n then m :: complete ms (n - (frame m).length) else []

/-- How much of a frame lies between the last complete one and the cut. -/
def part : List α → ℕ → ℕ
  | [], _ => 0
  | m :: ms, n => if (frame m).length ≤ n then part ms (n - (frame m).length) else n

/-- The cut lies behind a whole number of frames. -/
def Between (ms : List α) (n : ℕ) : Prop := ∃ k, k <+: ms ∧ (k.flatMap frame).length = n

/-- The cut lies inside the first `header` elements of a frame. -/
def InHeader (header : ℕ) (ms : List α) (n : ℕ) : Prop :=
  ∃ k m, k ++ [m] <+: ms ∧ (k.flatMap frame).length < n ∧ n < (k.flatMap frame).length + header

variable {frame} {ms : List α} {n : ℕ}

lemma isPrefix_complete (ms : List α) (n : ℕ) : complete frame ms n <+: ms := by
  induction ms generalizing n with
  | nil => exact List.prefix_refl _
  | cons m ms ih =>
    rw [complete]
    split_ifs
    · exact (List.prefix_cons_inj m).mpr (ih _)
    · exact List.nil_prefix

/-- Up to the cut there are the complete frames and a part of the next one. -/
lemma take_cases (ms : List α) (n : ℕ) :
    ((ms.flatMap frame).take n = (complete frame ms n).flatMap frame ∧ part frame ms n = 0) ∨
    ∃ m ∈ ms, part frame ms n < (frame m).length ∧
      (ms.flatMap frame).take n =
        (complete frame ms n).flatMap frame ++ (frame m).take (part frame ms n) := by
  induction ms generalizing n with
  | nil => exact .inl ⟨by simp [complete], rfl⟩
  | cons m ms ih =>
    rw [complete, part, List.flatMap_cons]
    split_ifs with h
    · have htake : (frame m ++ ms.flatMap frame).take n =
          frame m ++ (ms.flatMap frame).take (n - (frame m).length) := by
        rw [List.take_append, List.take_of_length_le h]
      rw [htake, List.flatMap_cons]
      rcases ih (n - (frame m).length) with ⟨hrest, hpart⟩ | ⟨next, hnext, hlt, hrest⟩
      · exact .inl ⟨by rw [hrest], hpart⟩
      · exact .inr ⟨next, List.mem_cons_of_mem _ hnext, hlt, by rw [hrest, List.append_assoc]⟩
    · refine .inr ⟨m, List.mem_cons_self, by omega, ?_⟩
      rw [List.take_append_of_le_length (by omega)]
      rfl

lemma part_zero (ms : List α) : part frame ms 0 = 0 := by
  induction ms with
  | nil => rfl
  | cons m ms ih =>
    rw [part, Nat.zero_sub]
    split_ifs
    · exact ih
    · rfl

lemma part_append (k l : List α) (n : ℕ) :
    part frame (k ++ l) ((k.flatMap frame).length + n) = part frame l n := by
  induction k with
  | nil => simp
  | cons m k ih =>
    rw [List.cons_append, part, List.flatMap_cons, List.length_append, if_pos (by omega),
      Nat.add_assoc, Nat.add_sub_cancel_left]
    exact ih

/-- A cut leaves no part of a frame exactly if it lies between two. -/
lemma part_eq_zero_iff (hn : n ≤ (ms.flatMap frame).length) :
    part frame ms n = 0 ↔ Between frame ms n := by
  constructor
  · intro hpart
    have htake : (ms.flatMap frame).take n = (complete frame ms n).flatMap frame := by
      rcases @take_cases _ _ frame ms n with ⟨htake, -⟩ | ⟨m, -, -, htake⟩
      · exact htake
      · rwa [hpart, List.take_zero, List.append_nil] at htake
    refine ⟨complete frame ms n, isPrefix_complete ms n, ?_⟩
    rw [← htake, List.length_take, Nat.min_eq_left hn]
  · rintro ⟨k, ⟨l, rfl⟩, rfl⟩
    have := @part_append _ _ frame k l 0
    rwa [Nat.add_zero, part_zero] at this

/-- A cut leaves a part of a header exactly if it lies in one. -/
lemma part_inHeader_iff {header : ℕ} (hheader : ∀ m ∈ ms, header ≤ (frame m).length) :
    0 < part frame ms n ∧ part frame ms n < header ↔ InHeader frame header ms n := by
  constructor
  · induction ms generalizing n with
    | nil => rintro ⟨hpos, -⟩; exact absurd hpos (by simp [part])
    | cons m ms ih =>
      rw [part]
      split_ifs with h
      · intro hpart
        obtain ⟨k, next, hk, hlow, hhigh⟩ :=
          ih (fun a ha => hheader a (List.mem_cons_of_mem _ ha)) hpart
        refine ⟨m :: k, next, (List.prefix_cons_inj m).mpr hk, ?_, ?_⟩ <;>
          · rw [List.flatMap_cons, List.length_append]
            omega
      · rintro ⟨hpos, hlt⟩
        exact ⟨[], m, ⟨ms, rfl⟩, hpos, by simpa using hlt⟩
  · rintro ⟨k, m, ⟨l, rfl⟩, hlow, hhigh⟩
    obtain ⟨j, rfl⟩ := Nat.exists_eq_add_of_lt hlow
    have hm := hheader m (by simp)
    have hpart : part frame (k ++ [m] ++ l) ((k.flatMap frame).length + j + 1) = j + 1 := by
      rw [List.append_assoc, Nat.add_assoc, part_append, List.singleton_append, part,
        if_neg (by omega)]
    rw [hpart]
    omega

/-! ### Reading -/

/-- What `k` reads in a row give. -/
def reads (read : List β → Except ε (Option α) × List β) : ℕ → List β → List (Except ε (Option α))
  | 0, _ => []
  | k + 1, bytes => (read bytes).1 :: reads read k (read bytes).2

/-- A cut stream is read right: all complete messages, then the end if the cut lies between two
frames and an error if it lies inside one. -/
def ReadRight (frame : α → List β) (read : List β → Except ε (Option α) × List β) (ms : List α)
    (n : ℕ) : Prop :=
  ∃ last, reads read ((complete frame ms n).length + 1) ((ms.flatMap frame).take n) =
      (complete frame ms n).map (.ok ∘ some) ++ [last] ∧
    (last = .ok none ↔ Between frame ms n) ∧ (¬Between frame ms n → ∃ e, last = .error e)

/-- What a read makes of whole frames, of nothing, and of parts of a frame. -/
structure Reader (frame : α → List β) (read : List β → Except ε (Option α) × List β)
    (header : ℕ) (ms : List α) : Prop where
  whole : ∀ m ∈ ms, ∀ rest, read (frame m ++ rest) = (.ok (some m), rest)
  nothing : (read []).1 = .ok none
  short : ∀ m ∈ ms, ∀ k < header, (read ((frame m).take k)).1 = .ok none
  long : ∀ m ∈ ms, ∀ k, header ≤ k → k < (frame m).length →
    ∃ e, (read ((frame m).take k)).1 = .error e

variable {read : List β → Except ε (Option α) × List β} {header : ℕ}

lemma reads_flatMap (h : Reader frame read header ms) {l : List α} (hl : l ⊆ ms) (k : ℕ)
    (rest : List β) :
    reads read (l.length + k) (l.flatMap frame ++ rest) =
      l.map (.ok ∘ some) ++ reads read k rest := by
  induction l with
  | nil => simp
  | cons m l ih =>
    have hm := h.whole m (hl List.mem_cons_self) (l.flatMap frame ++ rest)
    rw [List.length_cons, Nat.succ_add, List.flatMap_cons, List.append_assoc, reads, hm,
      ih fun a ha => hl (List.mem_cons_of_mem _ ha)]
    rfl

/-- **Which cuts are read right**: all but those strictly inside a header. -/
theorem readRight_iff (h : Reader frame read header ms)
    (hheader : ∀ m ∈ ms, header ≤ (frame m).length) (hn : n ≤ (ms.flatMap frame).length) :
    ReadRight frame read ms n ↔ ¬InHeader frame header ms n := by
  have hsub : complete frame ms n ⊆ ms := (isPrefix_complete ms n).subset
  -- The last read sees what is left of the frame that was cut.
  have hlast : ∀ rest, (ms.flatMap frame).take n = (complete frame ms n).flatMap frame ++ rest →
      (ReadRight frame read ms n ↔ ((read rest).1 = .ok none ↔ part frame ms n = 0) ∧
        (part frame ms n ≠ 0 → ∃ e, (read rest).1 = .error e)) := by
    intro rest hrest
    have hreads := reads_flatMap h hsub 1 rest
    rw [← hrest] at hreads
    rw [ReadRight, hreads, Ne, part_eq_zero_iff hn]
    constructor
    · rintro ⟨last, heq, hright⟩
      rw [List.append_cancel_left_eq] at heq
      obtain rfl : (read rest).1 = last := List.singleton_inj.mp heq
      exact hright
    · intro hright
      exact ⟨(read rest).1, rfl, hright⟩
  rw [← part_inHeader_iff hheader]
  rcases @take_cases _ _ frame ms n with ⟨htake, hpart⟩ | ⟨m, hm, hlt, htake⟩
  · rw [hlast [] (by rw [htake, List.append_nil]), hpart]
    exact iff_of_true ⟨iff_of_true h.nothing rfl, fun hc => absurd rfl hc⟩ (by omega)
  · rw [hlast _ htake]
    by_cases hzero : part frame ms n = 0
    · rw [hzero, List.take_zero]
      exact iff_of_true ⟨iff_of_true h.nothing rfl, fun hc => absurd rfl hc⟩ (by omega)
    · rcases Nat.lt_or_ge (part frame ms n) header with hshort | hlong
      · refine iff_of_false (fun hright => ?_) (by omega)
        exact hzero (hright.1.mp (h.short m hm _ hshort))
      · obtain ⟨e, he⟩ := h.long m hm _ hlong hlt
        rw [he]
        exact iff_of_true ⟨iff_of_false (by simp) hzero, fun _ => ⟨e, rfl⟩⟩ (by omega)

end TheKvm.Truncated

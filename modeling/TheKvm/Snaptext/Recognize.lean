import Mathlib.Algebra.Order.Ring.Int
import Mathlib.Data.List.Destutter

/-!
The text recogniser, from the scores of its steps to the text.

Each step has a score for every class of the dictionary. The first class with the greatest score
is taken; blanks and repeats are dropped.
-/

namespace TheKvm.Recognize

variable {α : Type*} [LinearOrder α]

/-- The class of a step and its score, from what is below every score on. -/
def argmax (floor : α) (row : ℕ → α) (c : ℕ) : ℕ × α :=
  (List.range c).foldl (fun best ci => if best.2 < row ci then (ci, row ci) else best) (0, floor)

/-- The text so far, the scores that are averaged, and the class of the last step. -/
structure Reading (α : Type*) where
  text : String
  confs : List α
  prev : ℕ

/-- One step of the decoding. -/
def Reading.step (dict : List String) (r : Reading α) (best : ℕ × α) : Reading α :=
  if best.1 ≠ 0 ∧ best.1 ≠ r.prev then
    match dict[best.1]? with
    | some ch => ⟨r.text ++ ch, r.confs ++ [best.2], best.1⟩
    | none => { r with prev := best.1 }
  else { r with prev := best.1 }

/-- The steps and the classes of an output, and whether its batches come first. -/
def layout (classes : ℕ) : List ℕ → Option (ℕ × ℕ × Bool)
  | [n, t, c] =>
    if c = classes then some (t, c, true)
    else if 4 < n ∧ t ≤ 4 then some (n, c, false)
    else none
  | _ => none

/-- The scores of a step. -/
def rowAt (floor : α) (out : List α) (n c : ℕ) (batchFirst : Bool) (ti ci : ℕ) : α :=
  out.getD (if batchFirst then ti * c + ci else ti * n * c + ci) floor

/-- `recognize`, from the output of the model on. -/
def recognize (dict : List String) (floor : α) (oshape : List ℕ) (out : List α) : Reading α :=
  let empty : Reading α := ⟨"", [], 2 ^ 64 - 1⟩
  match layout dict.length oshape with
  | none => empty
  | some (t, c, batchFirst) =>
    if c ≠ dict.length then empty
    else
      (List.range t).foldl (fun r ti =>
        r.step dict (argmax floor (rowAt floor out (oshape.getD 1 0) c batchFirst ti) c)) empty

/-! ### One step -/

/-- The first class with the greatest score, or the first of all if no score counts. -/
def Greatest (floor : α) (row : ℕ → α) (c : ℕ) (best : ℕ × α) : Prop :=
  (∀ ci < c, row ci ≤ best.2) ∧
    (best = (0, floor) ∨ best.1 < c ∧ best.2 = row best.1 ∧ floor < best.2 ∧
      ∀ ci < best.1, row ci < best.2)

lemma greatest_argmax (floor : α) (row : ℕ → α) (c : ℕ) :
    Greatest floor row c (argmax floor row c) := by
  induction c with
  | zero => exact ⟨fun ci h => absurd h (Nat.not_lt_zero ci), Or.inl rfl⟩
  | succ c ih =>
    have hnext : argmax floor row (c + 1) =
        if (argmax floor row c).2 < row c then (c, row c) else argmax floor row c := by
      rw [argmax, List.range_succ, List.foldl_append]
      rfl
    rw [hnext]
    generalize argmax floor row c = best at ih
    obtain ⟨hall, hbest⟩ := ih
    split_ifs with hgreater
    · refine ⟨fun ci hci => ?_, Or.inr ⟨Nat.lt_succ_self c, rfl, ?_, fun ci hci => ?_⟩⟩
      · rcases Nat.lt_succ_iff_lt_or_eq.mp hci with hlt | rfl
        · exact (hall ci hlt).trans hgreater.le
        · exact le_rfl
      · rcases hbest with rfl | ⟨-, -, hfloor, -⟩
        · exact hgreater
        · exact hfloor.trans hgreater
      · exact (hall ci hci).trans_lt hgreater
    · refine ⟨fun ci hci => ?_, hbest.imp_right fun ⟨hlt, h⟩ => ⟨hlt.trans (Nat.lt_succ_self c), h⟩⟩
      rcases Nat.lt_succ_iff_lt_or_eq.mp hci with hlt | rfl
      · exact hall ci hlt
      · exact not_lt.mp hgreater

/-! ### All steps -/

/-- A class of its own, and not the one before it. -/
def Differs (p q : ℕ × α) : Prop := p.1 ≠ q.1

instance (p q : ℕ × α) : Decidable (Differs p q) := inferInstanceAs (Decidable (p.1 ≠ q.1))

/-- What is left of the steps: of each run of a class its first, and no blanks. -/
def collapse (steps : List (ℕ × α)) : List (ℕ × α) :=
  (steps.destutter Differs).filter fun p => p.1 ≠ 0

omit [LinearOrder α] in
lemma head_destutter' (p : ℕ × α) (steps : List (ℕ × α)) :
    ∃ rest, steps.destutter' Differs p = p :: rest := by
  induction steps with
  | nil => exact ⟨[], rfl⟩
  | cons q steps ih =>
    rw [List.destutter'_cons]
    split_ifs
    · exact ⟨_, rfl⟩
    · exact ih

omit [LinearOrder α] in
/-- The decoding from any class on. -/
lemma foldl_step (dict : List String) (steps : List (ℕ × α)) (r : Reading α) (v : α)
    (hdict : ∀ p ∈ steps, p.1 ≠ 0 → p.1 < dict.length) :
    (steps.foldl (Reading.step dict) r).text =
        r.text ++ String.join (((steps.destutter' Differs (r.prev, v)).tail.filter fun p =>
          p.1 ≠ 0).map fun p => dict.getD p.1 "") ∧
      (steps.foldl (Reading.step dict) r).confs =
        r.confs ++ ((steps.destutter' Differs (r.prev, v)).tail.filter fun p =>
          p.1 ≠ 0).map Prod.snd := by
  induction steps generalizing r v with
  | nil => exact ⟨String.append_empty.symm, (List.append_nil _).symm⟩
  | cons p steps ih =>
    have hlater : ∀ q ∈ steps, q.1 ≠ 0 → q.1 < dict.length :=
      fun q hq => hdict q (List.mem_cons_of_mem _ hq)
    rw [List.foldl_cons]
    by_cases hsame : p.1 = r.prev
    · have hstep : r.step dict p = r := by
        rw [Reading.step, if_neg fun h => h.2 hsame, hsame]
      rw [hstep, List.destutter'_cons_neg _ (fun h : Differs (r.prev, v) p => h hsame.symm)]
      exact ih r v hlater
    · have hdiffers : Differs (r.prev, v) p := fun h => hsame h.symm
      obtain ⟨rest, hrest⟩ := head_destutter' p steps
      rw [List.destutter'_cons_pos _ hdiffers, List.tail_cons, hrest]
      by_cases hblank : p.1 = 0
      · have hstep : r.step dict p = { r with prev := p.1 } := if_neg fun h => h.1 hblank
        obtain ⟨htext, hconfs⟩ := ih { r with prev := p.1 } p.2 hlater
        rw [hrest, List.tail_cons] at htext hconfs
        rw [hstep, htext, hconfs, List.filter_cons_of_neg (by simpa using hblank)]
        exact ⟨rfl, rfl⟩
      · have hlt := hdict p List.mem_cons_self hblank
        have hget : dict[p.1]? = some (dict.getD p.1 "") := by
          rw [List.getD_eq_getElem?_getD, List.getElem?_eq_getElem hlt]
          rfl
        have hstep : r.step dict p =
            ⟨r.text ++ dict.getD p.1 "", r.confs ++ [p.2], p.1⟩ := by
          rw [Reading.step, if_pos ⟨hblank, hsame⟩, hget]
        obtain ⟨htext, hconfs⟩ :=
          ih ⟨r.text ++ dict.getD p.1 "", r.confs ++ [p.2], p.1⟩ p.2 hlater
        rw [hrest, List.tail_cons] at htext hconfs
        rw [hstep, htext, hconfs, List.filter_cons_of_pos (by simpa using hblank)]
        refine ⟨?_, ?_⟩
        · rw [List.map_cons, String.join_cons, String.append_assoc]
        · rw [List.map_cons, List.append_assoc, List.singleton_append]

/-- The steps that are read of an output, with the first greatest score of each. -/
def readSteps (classes : ℕ) (floor : α) (oshape : List ℕ) (out : List α) : List (ℕ × α) :=
  match oshape with
  | [_, t, c] =>
    if c = classes then
      (List.range t).map fun ti => argmax floor (fun ci => out.getD (ti * c + ci) floor) c
    else []
  | _ => []

/-- An output whose steps come first has another number of classes, and is not read. -/
lemma recognize_eq (dict : List String) (floor : α) (oshape : List ℕ) (out : List α) :
    recognize dict floor oshape out =
      (readSteps dict.length floor oshape out).foldl (Reading.step dict) ⟨"", [], 2 ^ 64 - 1⟩ := by
  rcases oshape with _ | ⟨n, _ | ⟨t, _ | ⟨c, _ | ⟨d, rest⟩⟩⟩⟩
  · rfl
  · rfl
  · rfl
  · by_cases hc : c = dict.length
    · have hlayout : layout dict.length [n, t, c] = some (t, c, true) := if_pos hc
      have hread : readSteps dict.length floor [n, t, c] out = (List.range t).map fun ti =>
          argmax floor (fun ci => out.getD (ti * c + ci) floor) c := if_pos hc
      unfold recognize
      rw [hlayout, hread, List.foldl_map]
      exact if_neg fun h => h hc
    · have hlayout : layout dict.length [n, t, c] =
          if 4 < n ∧ t ≤ 4 then some (n, c, false) else none := if_neg hc
      have hread : readSteps dict.length floor [n, t, c] out = [] := if_neg hc
      unfold recognize
      rw [hlayout, hread]
      split_ifs
      · exact if_pos hc
      · rfl
  · rfl

/-- **What the recogniser reads.** Of an output of batches of steps of classes, one class for each
entry of the dictionary, the first batch is read. A step stands for the first of its classes with
the greatest score; the text is that of the steps with every run of a class taken once and the
blanks dropped, and the scores are those with which the runs began. No other output is read, also
not one whose steps come before its batches. -/
theorem recognize_collapses (dict : List String) (hdict : dict.length < 2 ^ 64) (floor : α)
    (oshape : List ℕ) (out : List α) :
    (recognize dict floor oshape out).text =
        String.join ((collapse (readSteps dict.length floor oshape out)).map fun p =>
          dict.getD p.1 "") ∧
      (recognize dict floor oshape out).confs =
        (collapse (readSteps dict.length floor oshape out)).map Prod.snd ∧
      ∀ ti p, (readSteps dict.length floor oshape out)[ti]? = some p →
        Greatest floor (fun ci => out.getD (ti * dict.length + ci) floor) dict.length p := by
  have hsteps : ∀ ti p, (readSteps dict.length floor oshape out)[ti]? = some p →
      Greatest floor (fun ci => out.getD (ti * dict.length + ci) floor) dict.length p := by
    intro ti p hp
    unfold readSteps at hp
    split at hp
    · split_ifs at hp with hc
      · rw [List.getElem?_map, Option.map_eq_some_iff] at hp
        obtain ⟨i, hi, rfl⟩ := hp
        obtain ⟨hlt, hi⟩ := List.getElem?_eq_some_iff.mp hi
        rw [List.getElem_range] at hi
        rw [← hi, hc]
        exact greatest_argmax _ _ _
      · cases hp
    · cases hp
  rw [recognize_eq]
  generalize readSteps dict.length floor oshape out = steps at hsteps
  have hclass : ∀ p ∈ steps, p.1 ≠ 0 → p.1 < dict.length := by
    intro p hp hpos
    obtain ⟨ti, hti⟩ := List.mem_iff_getElem?.mp hp
    obtain ⟨-, rfl | ⟨hlt, -⟩⟩ := hsteps ti p hti
    · exact absurd rfl hpos
    · exact hlt
  obtain ⟨htext, hconfs⟩ := foldl_step dict steps ⟨"", [], 2 ^ 64 - 1⟩ floor hclass
  -- no class is the one that stands for the step before the first
  have htail : (steps.destutter' Differs (2 ^ 64 - 1, floor)).tail =
      steps.destutter Differs := by
    rcases steps with _ | ⟨p, steps⟩
    · rfl
    · have hdiffers : Differs (2 ^ 64 - 1, floor) p := by
        intro h
        have := hclass p List.mem_cons_self (by omega)
        omega
      rw [List.destutter'_cons_pos _ hdiffers]
      rfl
  rw [htail] at htext hconfs
  refine ⟨?_, ?_, hsteps⟩
  · rw [htext, String.empty_append]
    rfl
  · rw [hconfs, List.nil_append]
    rfl

theorem recognize_collapses_moo :
    (recognize ["blank", "m", "o", " "] (0 : ℕ) [1, 6, 4]
      [1, 9, 2, 0, 1, 8, 3, 1, 1, 2, 9, 1, 7, 1, 3, 0, 1, 2, 6, 1, 1, 2, 9, 1]).text =
        String.join ["m", "o", "o"] := by
  rw [(recognize_collapses ["blank", "m", "o", " "] (by decide) (0 : ℕ) [1, 6, 4] _).1]
  decide

end TheKvm.Recognize

import Mathlib.Data.Finset.Range
import Mathlib.Data.List.MinMax
import Mathlib.Tactic.Common

/-!
Gathering numbered parts.

A slice is cut into chunks of one size, the last may be shorter; numbered slots hold the
parts that have arrived. The slots that hold a set of the parts of one whole are all of the
state such a gathering has.
-/

namespace TheKvm.Gather

variable {α : Type*}

/-! ### Cutting -/

/-- `slice::chunks`. -/
def chunks (n : ℕ) (l : List α) : List (List α) :=
  (List.range ((l.length + n - 1) / n)).map fun i => (l.drop (i * n)).take n

lemma length_chunks (n : ℕ) (l : List α) : (chunks n l).length = (l.length + n - 1) / n := by
  rw [chunks, List.length_map, List.length_range]

lemma length_le_of_mem_chunks {n : ℕ} {l c : List α} (h : c ∈ chunks n l) : c.length ≤ n := by
  obtain ⟨i, -, rfl⟩ := List.mem_map.mp h
  exact List.length_take_le _ _

lemma flatten_take_chunks (n k : ℕ) (l : List α) :
    ((List.range k).map fun i => (l.drop (i * n)).take n).flatten = l.take (k * n) := by
  induction k with
  | zero => simp
  | succ k ih =>
    rw [List.range_succ, List.map_append, List.flatten_append, ih, Nat.succ_mul, List.take_add]
    simp

/-- The chunks of a list make up the list. -/
lemma flatten_chunks {n : ℕ} (hn : 0 < n) (l : List α) : (chunks n l).flatten = l := by
  rw [chunks, flatten_take_chunks]
  apply List.take_of_length_le
  have hdiv := Nat.div_add_mod (l.length + n - 1) n
  have hmod := Nat.mod_lt (l.length + n - 1) hn
  rw [Nat.mul_comm] at hdiv
  omega

lemma chunks_nil {n : ℕ} (hn : 0 < n) : chunks n ([] : List α) = [] := by
  have hzero : (0 + n - 1) / n = 0 := Nat.div_eq_of_lt (by omega)
  rw [chunks, List.length_nil, hzero]
  rfl

lemma chunks_cons {n : ℕ} (hn : 0 < n) {l : List α} (hl : l ≠ []) :
    chunks n l = l.take n :: chunks n (l.drop n) := by
  have hpos := List.length_pos_of_ne_nil hl
  have hcount : (l.length + n - 1) / n = ((l.drop n).length + n - 1) / n + 1 := by
    rw [List.length_drop]
    rcases Nat.lt_or_ge n l.length with hlong | hshort
    · rw [show l.length - n + n - 1 = l.length - 1 by omega,
        show l.length + n - 1 = l.length - 1 + n by omega, Nat.add_div_right _ hn]
    · rw [show l.length - n + n - 1 = n - 1 by omega,
        show l.length + n - 1 = l.length - 1 + n by omega, Nat.add_div_right _ hn,
        Nat.div_eq_of_lt (by omega), Nat.div_eq_of_lt (by omega)]
  rw [chunks, hcount, List.range_succ_eq_map, List.map_cons, List.map_map, chunks, Nat.zero_mul,
    List.drop_zero]
  congr 1
  apply List.map_congr_left
  intro i _
  rw [Function.comp_apply, List.drop_drop, Nat.succ_mul, Nat.add_comm]

/-! ### Slots -/

/-- The parts of a whole that have arrived, in their slots. -/
def select (parts : List α) (s : Finset ℕ) : List (Option α) :=
  parts.mapIdx fun i a => if i ∈ s then some a else none

variable {parts : List α} {s : Finset ℕ} {i : ℕ}

@[simp] lemma length_select : (select parts s).length = parts.length := List.length_mapIdx

lemma getElem?_select :
    (select parts s)[i]? = parts[i]?.map fun a => if i ∈ s then some a else none :=
  List.getElem?_mapIdx

lemma select_empty : select parts ∅ = List.replicate parts.length none := by
  apply List.ext_getElem?
  intro i
  rw [getElem?_select, List.getElem?_replicate]
  rcases hi : parts[i]? with _ | a
  · rw [if_neg (by rw [List.getElem?_eq_none_iff] at hi; omega)]
    rfl
  · rw [if_pos (List.getElem?_eq_some_iff.mp hi).1]
    rfl

/-- A part put in its slot has arrived. -/
lemma set_select {a : α} (h : parts[i]? = some a) :
    (select parts s).set i (some a) = select parts (insert i s) := by
  obtain ⟨hi, -⟩ := List.getElem?_eq_some_iff.mp h
  apply List.ext_getElem?
  intro j
  rw [List.getElem?_set, getElem?_select, getElem?_select, length_select]
  by_cases hij : i = j
  · subst hij
    rw [if_pos rfl, if_pos hi, h, Option.map_some, if_pos (Finset.mem_insert_self i s)]
  · have hmem : j ∈ insert i s ↔ j ∈ s := by simp [Ne.symm hij]
    rw [if_neg hij]
    simp only [hmem]

/-- The slots are full when every part has arrived. -/
lemma all_select : (∀ slot ∈ select parts s, slot.isSome) ↔ Finset.range parts.length ⊆ s := by
  constructor
  · intro h i hi
    have hi := Finset.mem_range.mp hi
    have hslot : (select parts s)[i]? = some (if i ∈ s then some parts[i] else none) := by
      rw [getElem?_select, List.getElem?_eq_getElem hi]
      rfl
    have := h _ (List.mem_of_getElem? hslot)
    by_contra hmem
    rw [if_neg hmem] at this
    cases this
  · intro h slot hslot
    obtain ⟨i, hi⟩ := List.mem_iff_getElem?.mp hslot
    rw [getElem?_select] at hi
    obtain ⟨a, ha, rfl⟩ := Option.map_eq_some_iff.mp hi
    rw [if_pos (h (Finset.mem_range.mpr (List.getElem?_eq_some_iff.mp ha).1))]
    rfl

lemma select_full (h : Finset.range parts.length ⊆ s) : select parts s = parts.map some := by
  apply List.ext_getElem?
  intro i
  rw [getElem?_select, List.getElem?_map]
  rcases hi : parts[i]? with _ | a
  · rfl
  · have hmem := h (Finset.mem_range.mpr (List.getElem?_eq_some_iff.mp hi).1)
    rw [Option.map_some, Option.map_some, if_pos hmem]

end TheKvm.Gather

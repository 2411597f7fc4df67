import Mathlib.Data.List.Sort
import Mathlib.Order.Basic

/-!
Finite sets that are walked in ascending order.

A set is its members from the lowest up, so two sets with the same members are equal and the
walk is a function of the set.
-/

namespace TheKvm

/-- Members are compared by their ranks. -/
class Ranked (α : Type*) where
  rank : α → ℕ
  rank_inj : Function.Injective rank

structure BTreeSet (α : Type*) [Ranked α] where
  toList : List α
  ascending : toList.Pairwise fun a b => Ranked.rank a < Ranked.rank b

namespace BTreeSet

variable {α : Type*} [Ranked α] {a b : α} {s t : BTreeSet α}

instance : Membership α (BTreeSet α) := ⟨fun s a => a ∈ s.toList⟩

lemma mem_def : a ∈ s ↔ a ∈ s.toList := Iff.rfl

instance [DecidableEq α] (a : α) (s : BTreeSet α) : Decidable (a ∈ s) :=
  inferInstanceAs (Decidable (a ∈ s.toList))

instance [DecidableEq α] : DecidableEq (BTreeSet α) := fun s t =>
  decidable_of_iff (s.toList = t.toList) (by cases s; cases t; simp)

def empty : BTreeSet α := ⟨[], List.Pairwise.nil⟩

@[simp] lemma not_mem_empty : a ∉ (empty : BTreeSet α) := List.not_mem_nil

def isEmpty (s : BTreeSet α) : Bool := s.toList.isEmpty

lemma isEmpty_iff : s.isEmpty = true ↔ ∀ a, a ∉ s := by
  rw [isEmpty, List.isEmpty_iff, List.eq_nil_iff_forall_not_mem]
  rfl

/-- Where a member goes, before the first that ranks higher. -/
def place (a : α) : List α → List α
  | [] => [a]
  | b :: l =>
    if Ranked.rank a < Ranked.rank b then a :: b :: l
    else if Ranked.rank b < Ranked.rank a then b :: place a l
    else b :: l

lemma mem_place {l : List α} : b ∈ place a l ↔ b = a ∨ b ∈ l := by
  induction l with
  | nil => simp [place]
  | cons c l ih =>
    rw [place]
    split_ifs with hlt hgt
    · exact List.mem_cons
    · rw [List.mem_cons, ih, List.mem_cons]
      tauto
    · have heq : a = c := Ranked.rank_inj (by omega)
      rw [List.mem_cons, heq]
      tauto

lemma place_ascending {l : List α} (h : l.Pairwise fun a b => Ranked.rank a < Ranked.rank b) :
    (place a l).Pairwise fun a b => Ranked.rank a < Ranked.rank b := by
  induction l with
  | nil => exact List.pairwise_singleton _ a
  | cons c l ih =>
    obtain ⟨hc, hl⟩ := List.pairwise_cons.mp h
    rw [place]
    split_ifs with hlt hgt
    · refine List.pairwise_cons.mpr ⟨fun b hb => ?_, h⟩
      rcases List.mem_cons.mp hb with rfl | hb
      · exact hlt
      · exact hlt.trans (hc b hb)
    · refine List.pairwise_cons.mpr ⟨fun b hb => ?_, ih hl⟩
      rcases mem_place.mp hb with rfl | hb
      · exact hgt
      · exact hc b hb
    · exact h

def insert (s : BTreeSet α) (a : α) : BTreeSet α := ⟨place a s.toList, place_ascending s.ascending⟩

@[simp] lemma mem_insert : b ∈ s.insert a ↔ b = a ∨ b ∈ s := mem_place

/-- `extend`. -/
def extend (s t : BTreeSet α) : BTreeSet α := t.toList.foldl insert s

lemma mem_extend : b ∈ s.extend t ↔ b ∈ s ∨ b ∈ t := by
  obtain ⟨l, hl⟩ := t
  show b ∈ l.foldl insert s ↔ b ∈ s ∨ b ∈ l
  clear hl
  induction l generalizing s with
  | nil => simp
  | cons a l ih =>
    rw [List.foldl_cons, ih, mem_insert, List.mem_cons]
    tauto

variable [DecidableEq α]

def erase (s : BTreeSet α) (a : α) : BTreeSet α :=
  ⟨s.toList.filter (· ≠ a), s.ascending.filter _⟩

@[simp] lemma mem_erase : b ∈ s.erase a ↔ b ≠ a ∧ b ∈ s := by
  rw [mem_def, erase, List.mem_filter, decide_eq_true_iff, and_comm]
  rfl

/-- The members that the other set lacks, from the lowest up. -/
def difference (s t : BTreeSet α) : List α := s.toList.filter (· ∉ t)

lemma mem_difference : a ∈ s.difference t ↔ a ∈ s ∧ a ∉ t := by
  rw [difference, List.mem_filter, decide_eq_true_iff]
  rfl

lemma nodup_difference : (s.difference t).Nodup :=
  (s.ascending.imp fun hlt heq => by rw [heq] at hlt; exact lt_irrefl _ hlt).filter _

end BTreeSet

end TheKvm

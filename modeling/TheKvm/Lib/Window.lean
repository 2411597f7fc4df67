import Mathlib.Algebra.BigOperators.Group.List.Basic
import Mathlib.Algebra.Order.Ring.Int
import TheKvm.Lib.Run

/-!
The largest sum of a window that ends now.

`peak` is the running maximum over the suffixes of a list of displacements, the empty one
included. A quantity that grows by no more than the displacement of each step of a machine
and never below zero is bounded by it, and some suffix attains the bound.
-/

namespace TheKvm.Window

/-- The largest sum of a suffix. -/
def peak (l : List ℤ) : ℤ := l.foldl (fun m δ => max 0 (m + δ)) 0

lemma peak_snoc (l : List ℤ) (δ : ℤ) : peak (l ++ [δ]) = max 0 (peak l + δ) := by
  rw [peak, List.foldl_append]
  rfl

lemma peak_nonneg (l : List ℤ) : 0 ≤ peak l := by
  induction l using List.reverseRecOn with
  | nil => exact le_rfl
  | append_singleton l δ _ =>
    rw [peak_snoc]
    exact le_max_left _ _

variable {σ α ω : Type*} {step : σ → α → Option (σ × ω)}

/-- Some window that ends now attains the peak. -/
lemma exists_window (weight : α → ℤ) (l : List α) :
    ∃ s, s <:+ l ∧ (s.map weight).sum = peak (l.map weight) := by
  induction l using List.reverseRecOn with
  | nil => exact ⟨[], List.suffix_rfl, rfl⟩
  | append_singleton l a ih =>
    obtain ⟨s, hs, hsum⟩ := ih
    rw [List.map_append, List.map_singleton, peak_snoc]
    by_cases h : 0 ≤ peak (l.map weight) + weight a
    · refine ⟨s ++ [a], ?_, ?_⟩
      · obtain ⟨t, rfl⟩ := hs
        exact ⟨t, by rw [List.append_assoc]⟩
      · rw [List.map_append, List.sum_append, hsum, max_eq_right h]
        simp
    · exact ⟨[], List.nil_suffix, by rw [List.map_nil, List.sum_nil, max_eq_left (by omega)]⟩

/-- A bound that every step moves along with the peak holds at the end of every run. -/
theorem invariant_peak {I : σ → ℤ → Prop} (weight : α → ℤ)
    (h : ∀ s a s' o p, 0 ≤ p → I s p → step s a = some (s', o) → I s' (max 0 (p + weight a)))
    {s t : σ} {l : List α} {os : List ω} (hs : I s 0) (hr : Run.run step s l = some (t, os)) :
    I t (peak (l.map weight)) := by
  induction l using List.reverseRecOn generalizing t os with
  | nil =>
    obtain ⟨rfl, -⟩ := Prod.mk.inj (Option.some.inj hr)
    exact hs
  | append_singleton l a ih =>
    obtain ⟨s', os', o, hl, ha, -⟩ := Run.run_snoc_some.mp hr
    rw [List.map_append, List.map_singleton, peak_snoc]
    exact h s' a t o _ (peak_nonneg _) (ih hl) ha

/-- What takes a peak takes a window: where the last step of a run needs `budget` of the
peak, some window that ends with it adds up to that. -/
theorem exists_window_of_budget {I : σ → ℤ → Prop} (weight : α → ℤ) {budget : ℤ}
    (h : ∀ s a s' o p, 0 ≤ p → I s p → step s a = some (s', o) → I s' (max 0 (p + weight a)))
    {s t : σ} {l : List α} {a : α} {os : List ω} (hs : I s 0)
    (hr : Run.run step s l = some (t, os))
    (hb : ∀ p, 0 ≤ p → I t p → budget ≤ max 0 (p + weight a)) :
    ∃ w, w <:+ l ++ [a] ∧ budget ≤ (w.map weight).sum := by
  obtain ⟨w, hw, hsum⟩ := exists_window weight (l ++ [a])
  refine ⟨w, hw, ?_⟩
  rw [hsum, List.map_append, List.map_singleton, peak_snoc]
  exact hb _ (peak_nonneg _) (invariant_peak weight h hs hr)

end TheKvm.Window

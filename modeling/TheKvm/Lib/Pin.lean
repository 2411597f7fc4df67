import Mathlib.Algebra.Order.Group.Defs
import Mathlib.Algebra.Order.Group.Unbundled.Basic
import Mathlib.Order.Basic
import Mathlib.Tactic.Common

/-!
Two ways to sum up steps within bounds.

One keeps the whole sum and pins what it shows. The other pins the sum at every step. They part
where a step comes back from beyond a bound, unless it goes all the way to the other one.
-/

namespace TheKvm

section

variable {α : Type*} [LinearOrder α]

/-- The nearest value from `lo` to `hi`. -/
def pin (lo hi v : α) : α := min (max v lo) hi

namespace pin

variable {lo hi v : α}

lemma le (lo hi v : α) : pin lo hi v ≤ hi := min_le_right _ _

lemma ge (h : lo ≤ hi) (v : α) : lo ≤ pin lo hi v := le_min (le_max_right _ _) h

lemma of_mem (hlo : lo ≤ v) (hhi : v ≤ hi) : pin lo hi v = v := by
  rw [pin, max_eq_left hlo, min_eq_left hhi]

lemma of_ge (h : hi ≤ v) : pin lo hi v = hi := min_eq_right (h.trans (le_max_left _ _))

lemma of_le (hle : lo ≤ hi) (h : v ≤ lo) : pin lo hi v = lo := by
  rw [pin, max_eq_right h, min_eq_left hle]

/-- Of two values the greater shows above the lower bound and the other below the upper one. -/
lemma lt_of_lt {u v : α} (hlt : lo < hi) (huv : u < v) (hv : lo < v) (hu : u < hi) :
    pin lo hi u < pin lo hi v := by
  refine lt_min ?_ ((min_le_left _ _).trans_lt (max_lt hu hlt))
  exact (min_le_left _ _).trans_lt ((max_lt huv hv).trans_le (le_max_left _ _))

lemma idem (h : lo ≤ hi) (v : α) : pin lo hi (pin lo hi v) = pin lo hi v :=
  of_mem (ge h v) (le lo hi v)

end pin

end

section

variable {α : Type*} [AddCommGroup α] [LinearOrder α] [IsOrderedAddMonoid α]

/-- From `p` the step `d` does not come back from beyond a bound, short of the other one. -/
def Onward (lo hi p d : α) : Prop :=
  (lo ≤ p ∧ p ≤ hi) ∨ (hi < p ∧ (0 ≤ d ∨ p + d ≤ lo)) ∨ (p < lo ∧ (d ≤ 0 ∨ hi ≤ p + d))

namespace pin

variable {lo hi p d : α}

lemma add_of_onward (hle : lo ≤ hi) (h : Onward lo hi p d) :
    pin lo hi (pin lo hi p + d) = pin lo hi (p + d) := by
  obtain ⟨hlo, hhi⟩ | ⟨hhi, hd | hback⟩ | ⟨hlo, hd | hback⟩ := h
  · rw [of_mem hlo hhi]
  · rw [of_ge hhi.le, of_ge (le_add_of_nonneg_right hd),
      of_ge (hhi.le.trans (le_add_of_nonneg_right hd))]
  · have hless : hi + d ≤ lo := (add_le_add_left hhi.le d).trans hback
    rw [of_ge hhi.le, of_le hle hless, of_le hle hback]
  · rw [of_le hle hlo.le, of_le hle (add_le_of_nonpos_right hd),
      of_le hle ((add_le_of_nonpos_right hd).trans hlo.le)]
  · have hmore : hi ≤ lo + d := hback.trans (add_le_add_left hlo.le d)
    rw [of_le hle hlo.le, of_ge hmore, of_ge hback]

/-- **When the two ways agree** after one more step. -/
theorem add_iff (hlt : lo < hi) :
    pin lo hi (pin lo hi p + d) = pin lo hi (p + d) ↔ Onward lo hi p d := by
  refine ⟨fun heq => ?_, add_of_onward hlt.le⟩
  rcases lt_or_ge hi p with hp | hhi
  · refine .inr (.inl ⟨hp, ?_⟩)
    by_contra! hback
    rw [of_ge hp.le] at heq
    exact (lt_of_lt hlt (add_lt_add_left hp d) hback.2 (add_lt_of_neg_right hi hback.1)).ne heq
  rcases lt_or_ge p lo with hp | hlo
  · refine .inr (.inr ⟨hp, ?_⟩)
    by_contra! hback
    rw [of_le hlt.le hp.le] at heq
    exact (lt_of_lt hlt (add_lt_add_left hp d) (lt_add_of_pos_right lo hback.1) hback.2).ne' heq
  · exact .inl ⟨hlo, hhi⟩

end pin

end

end TheKvm

import Mathlib.Algebra.Order.Group.Abs
import Mathlib.Algebra.Order.Group.Int
import Mathlib.Data.Int.Order.Basic
import Mathlib.Tactic.Linarith
import Mathlib.Tactic.Ring

/-!
A bank that pays whole units out of what was put in, and keeps the rest.

What is in the bank saturates at `-(N + 1)` and `N`, and a payment at `-(M + 1)` and `M`, the
limits of two's complement integers. The limits are not symmetric, so what is put in with the
opposite sign is paid with the opposite sign only where no limit is reached.
-/

namespace TheKvm.Bank

/-- The nearest integer from `-(N + 1)` to `N`. -/
def saturate (N v : ℤ) : ℤ := min (max v (-(N + 1))) N

lemma saturate_of_abs_le {N v : ℤ} (h : |v| ≤ N) : saturate N v = v := by
  rw [abs_le] at h
  rw [saturate, max_eq_left (by omega), min_eq_left h.2]

lemma saturate_le (N v : ℤ) : saturate N v ≤ N := min_le_right _ _

section

variable (u M N : ℤ)

/-- The whole units that are paid. -/
def paid (sum : ℤ) : ℤ := saturate M (sum.tdiv u)

/-- What is paid when `x` is put in, and what is left then. -/
def put (left x : ℤ) : ℤ × ℤ :=
  let sum := saturate N (left + x)
  (paid u M sum, sum - u * paid u M sum)

end

variable {u M N left x : ℤ}

/-- What is paid and what is left are what was there, up to the limit. -/
lemma put_sum : u * (put u M N left x).1 + (put u M N left x).2 = saturate N (left + x) :=
  add_sub_cancel _ _

lemma abs_tmod_lt (hu : 0 < u) (v : ℤ) : |v.tmod u| < u := by
  have hneg := Int.tmod_lt_of_pos (-v) hu
  rw [Int.neg_tmod] at hneg
  exact abs_lt.mpr ⟨by omega, Int.tmod_lt_of_pos v hu⟩

/-- A payment within the limits leaves less than a unit. -/
lemma put_left (hu : 0 < u)
    (h : saturate M ((saturate N (left + x)).tdiv u) = (saturate N (left + x)).tdiv u) :
    |(put u M N left x).2| < u := by
  have hrest : (put u M N left x).2 = (saturate N (left + x)).tmod u := by
    rw [put, paid, h, Int.tmod_def]
  rw [hrest]
  exact abs_tmod_lt hu _

/-- No more than the sum is paid, and nothing of the other sign. -/
lemma paid_of_nonneg (hu : 0 < u) (hM : 0 ≤ M) {v : ℤ} (hv : 0 ≤ v) :
    0 ≤ u * paid u M v ∧ u * paid u M v ≤ v := by
  have hunits : 0 ≤ v.tdiv u := Int.tdiv_nonneg hv hu.le
  have hle : paid u M v ≤ v.tdiv u := by rw [paid, saturate]; omega
  refine ⟨Int.mul_nonneg hu.le (by rw [paid, saturate]; omega), ?_⟩
  calc u * paid u M v ≤ u * v.tdiv u := Int.mul_le_mul_of_nonneg_left hle hu.le
    _ ≤ v := Int.mul_tdiv_self_le hv

lemma paid_of_nonpos (hu : 0 < u) (hM : 0 ≤ M) {v : ℤ} (hv : v ≤ 0) :
    v ≤ u * paid u M v ∧ u * paid u M v ≤ 0 := by
  have hunits : 0 ≤ (-v).tdiv u := Int.tdiv_nonneg (by omega) hu.le
  have hmul : u * (-v).tdiv u ≤ -v := Int.mul_tdiv_self_le (by omega)
  rw [Int.neg_tdiv] at hunits hmul
  rw [mul_neg] at hmul
  have hle : v.tdiv u ≤ paid u M v := by rw [paid, saturate]; omega
  refine ⟨?_, Int.mul_nonpos_of_nonneg_of_nonpos hu.le (by rw [paid, saturate]; omega)⟩
  calc v ≤ u * v.tdiv u := by omega
    _ ≤ u * paid u M v := Int.mul_le_mul_of_nonneg_left hle hu.le

/-! ### Far from the limits -/

lemma abs_tdiv_le_iff (hu : 0 < u) {v : ℤ} : |v.tdiv u| ≤ M ↔ |v| < u * (M + 1) := by
  have habs : |v.tdiv u| = |v| / u := by
    rcases Int.le_total 0 v with hv | hv
    · rw [abs_of_nonneg hv, Int.tdiv_eq_ediv_of_nonneg hv]
      exact abs_of_nonneg (Int.ediv_nonneg hv hu.le)
    · rw [abs_of_nonpos hv, ← Int.neg_neg v, Int.neg_tdiv, abs_neg, Int.neg_neg,
        Int.tdiv_eq_ediv_of_nonneg (by omega)]
      exact abs_of_nonneg (Int.ediv_nonneg (by omega) hu.le)
  rw [habs, ← Int.lt_add_one_iff, Int.ediv_lt_iff_lt_mul hu, mul_comm]

/-- Less than what reaches a limit is paid and left with nothing lost. -/
lemma put_of_fits (hu : 0 < u) (hN : u * (M + 1) ≤ N + 1) (h : |left + x| < u * (M + 1)) :
    put u M N left x = ((left + x).tdiv u, (left + x).tmod u) := by
  have hsum : saturate N (left + x) = left + x := saturate_of_abs_le (by omega)
  have hpaid : paid u M (left + x) = (left + x).tdiv u :=
    saturate_of_abs_le ((abs_tdiv_le_iff hu).mpr h)
  rw [put, hsum, hpaid, Int.tmod_def]

/-! ### At the limits -/

lemma paid_high (hu : 0 < u) {v : ℤ} (hv : 0 ≤ v) (h : u * (M + 1) ≤ v) : paid u M v = M := by
  have hunits : M + 1 ≤ v.tdiv u := by
    rw [Int.tdiv_eq_ediv_of_nonneg hv]
    exact Int.le_ediv_of_mul_le hu (by rwa [mul_comm])
  rw [paid, saturate]
  exact min_eq_right ((by omega : M ≤ v.tdiv u).trans (le_max_left _ _))

lemma paid_low (hu : 0 < u) (hM : 0 ≤ M) {v : ℤ} (hv : v ≤ 0) (h : v ≤ -(u * (M + 1))) :
    paid u M v = -(M + 1) := by
  have hunits : M + 1 ≤ (-v).tdiv u := by
    rw [Int.tdiv_eq_ediv_of_nonneg (by omega)]
    exact Int.le_ediv_of_mul_le hu (by rw [mul_comm]; omega)
  rw [Int.neg_tdiv] at hunits
  rw [paid, saturate, max_eq_right (by omega), min_eq_left (by omega)]

/-! ### The opposite sign -/

/-- What is put in with the opposite sign is paid and left with the opposite sign exactly where no
limit is reached. -/
theorem put_neg_iff (hu : 0 < u) (hM : 0 ≤ M) (hN : u * (M + 1) + u ≤ N + 1) (hleft : |left| < u)
    (hx : -(N + 1) ≤ x ∧ x ≤ N) :
    put u M N (-left) (saturate N (-x)) = -put u M N left x ↔ |left + x| < u * (M + 1) := by
  have hpos : 0 < u * (M + 1) := mul_pos hu (by omega)
  rw [abs_lt] at hleft
  constructor
  · intro h
    by_contra hc
    have hpaid : paid u M (saturate N (-left + saturate N (-x))) =
        -paid u M (saturate N (left + x)) := congrArg Prod.fst h
    rw [abs_lt, not_and_or, not_lt, not_lt] at hc
    rcases hc with hlow | hhigh
    · -- The payment is `-(M + 1)`, and the opposite one is too much.
      rw [paid_low hu hM (v := saturate N (left + x)) (by rw [saturate]; omega)
        (by rw [saturate]; omega)] at hpaid
      have : paid u M (saturate N (-left + saturate N (-x))) ≤ M := saturate_le _ _
      omega
    · -- The payment is `M`, and the opposite one is one unit more.
      have hneg : saturate N (-x) = -x := by rw [saturate]; omega
      rw [hneg, paid_high hu (v := saturate N (left + x)) (by rw [saturate]; omega)
        (by rw [saturate]; omega), paid_low hu hM (by rw [saturate]; omega)
        (by rw [saturate]; omega)] at hpaid
      omega
  · intro h
    have h' := abs_lt.mp h
    have hneg : saturate N (-x) = -x := by rw [saturate]; omega
    have hsum : -left + -x = -(left + x) := by ring
    have hopposite : |-left + -x| < u * (M + 1) := by rwa [hsum, abs_neg]
    rw [hneg, put_of_fits hu (by omega) h, put_of_fits hu (by omega) hopposite, hsum,
      Int.neg_tdiv, Int.neg_tmod]
    rfl

end TheKvm.Bank

import Mathlib.Data.Int.GCD
import TheKvm.Lib.Bank

/-!
A remainder that is rounded twice.

Of what was put in, whole `k`-ths of a unit `u` are emitted, and what they are worth is taken off,
rounded to what can be kept. Where the second rounding takes off too little, more is emitted than
was put in. It never does exactly if one of `u` and `k` divides the other.
-/

namespace TheKvm.Carry

section

variable (u k a : ℤ)

def emitted : ℤ := (a * k).tdiv u

def kept : ℤ := a - (emitted u k a * u).tdiv k

/-- What is emitted and not taken off. -/
def excess : ℤ := (emitted u k a * u).tmod k

end

variable {u k a : ℤ}

lemma emitted_add_kept : u * emitted u k a + k * kept u k a = k * a + excess u k a := by
  have hdiv := Int.tmod_add_mul_tdiv (emitted u k a * u) k
  rw [kept, excess, mul_sub]
  linarith

/-- What is emitted is worth no more than what there was. -/
lemma abs_worth_le : |emitted u k a * u| ≤ |a * k| := by
  rw [Int.abs_eq_natAbs, Int.abs_eq_natAbs, Int.natAbs_mul, emitted, Int.natAbs_tdiv]
  exact_mod_cast Nat.div_mul_le_self _ _

/-! ### Where nothing is lost -/

lemma excess_of_dvd (h : u ∣ k ∨ k ∣ u) : excess u k a = 0 := by
  refine Int.tmod_eq_zero_of_dvd ?_
  rcases h with h | h
  · rw [emitted, Int.tdiv_mul_cancel (h.mul_left a)]
    exact dvd_mul_left k a
  · exact h.mul_left _

lemma mul_kept : k * kept u k a = (a * k).tmod u + excess u k a := by
  have hdiv := Int.tmod_add_mul_tdiv (a * k) u
  have hsum := emitted_add_kept (u := u) (k := k) (a := a)
  rw [emitted] at hsum
  linarith

/-- What is kept is less than what emits. -/
lemma kept_lt (hu : 0 < u) (h : u ∣ k ∨ k ∣ u) : |k * kept u k a| < u := by
  rw [mul_kept, excess_of_dvd h, add_zero]
  exact Bank.abs_tmod_lt hu _

lemma emitted_of_lt (h : |k * a| < u) : emitted u k a = 0 := by
  rw [emitted, mul_comm]
  rcases le_total 0 (k * a) with hpos | hneg
  · exact Int.tdiv_eq_zero_of_lt hpos (abs_of_nonneg hpos ▸ h)
  · rw [abs_of_nonpos hneg] at h
    rw [← neg_neg (k * a), Int.neg_tdiv, Int.tdiv_eq_zero_of_lt (by linarith) h, neg_zero]

/-! ### Where too much is emitted -/

lemma excess_of_nonpos (hu : 0 < u) (hk : 0 < k) (ha : a ≤ 0) :
    -k < excess u k a ∧ excess u k a ≤ 0 := by
  have hemitted : emitted u k a ≤ 0 := by
    rw [emitted, ← neg_neg (a * k), Int.neg_tdiv]
    have := Int.tdiv_nonneg (a := -(a * k)) (by nlinarith) hu.le
    linarith
  have habs := abs_lt.mp (Bank.abs_tmod_lt hk (emitted u k a * u))
  refine ⟨habs.1, ?_⟩
  have hneg := Int.tmod_nonneg k (a := -(emitted u k a * u)) (by nlinarith)
  rw [Int.neg_tmod] at hneg
  rw [excess]
  linarith

/-- What is kept of a debt is a debt of no more than one emission and one unit. -/
lemma kept_of_nonpos (hu : 0 < u) (hk : 0 < k) (ha : a ≤ 0) :
    -(u + k) < k * kept u k a ∧ k * kept u k a ≤ 0 := by
  have hexcess := excess_of_nonpos hu hk ha
  have habs := abs_lt.mp (Bank.abs_tmod_lt hu (a * k))
  have hneg := Int.tmod_nonneg u (a := -(a * k)) (by nlinarith)
  rw [Int.neg_tmod] at hneg
  rw [mul_kept]
  constructor <;> linarith

/-- Some sum leaves a remainder of one behind an emission that is more than half of a `k`-th too
much. -/
lemma exists_kept_one (hu : 0 < u) (hk : 0 < k) (h : ¬(u ∣ k ∨ k ∣ u)) :
    ∃ a, 0 < a ∧ a < u ∧ kept u k a = 1 ∧ k ≤ 2 * excess u k a := by
  obtain ⟨hu', hk'⟩ := not_or.mp h
  set d : ℤ := (Int.gcd k u : ℤ) with hd
  have hdk : d ∣ k := Int.gcd_dvd_left ..
  have hdu : d ∣ u := Int.gcd_dvd_right ..
  have hdpos : 0 < d := by
    rw [hd]
    exact_mod_cast Int.gcd_pos_of_ne_zero_left u hk.ne'
  -- `d` is what is left of `a` whole inputs
  set a := Int.gcdA k u % u with ha
  have hrest : k * a % u = d := by
    have hbezout : d = k * Int.gcdA k u + u * Int.gcdB k u := Int.gcd_eq_gcd_ab k u
    have hlt : d < u := by
      refine lt_of_le_of_ne (Int.le_of_dvd hu hdu) fun heq => hu' ?_
      rwa [← heq]
    rw [ha, Int.mul_emod, Int.emod_emod_of_dvd _ dvd_rfl, ← Int.mul_emod]
    have hcong : k * Int.gcdA k u = d - u * Int.gcdB k u := by linarith
    rw [hcong, Int.sub_mul_emod_self_left, Int.emod_eq_of_lt hdpos.le hlt]
  have hapos : 0 < a := by
    refine lt_of_le_of_ne (Int.emod_nonneg _ hu.ne') fun hzero => ?_
    rw [← hzero, mul_zero, Int.zero_emod] at hrest
    exact hdpos.ne hrest
  refine ⟨a, hapos, Int.emod_lt_of_pos _ hu, ?_⟩
  have hhalf : 2 * d ≤ k := by
    obtain ⟨c, hc⟩ := hdk
    have hone : c ≠ 1 := fun hone => hk' (by rw [hc, hone, mul_one]; exact hdu)
    have hcpos : 0 < c := by nlinarith
    nlinarith [show 2 ≤ c by omega]
  have hworth : emitted u k a * u = (k - d) + k * (a - 1) := by
    have hdiv := Int.emod_add_mul_ediv (k * a) u
    rw [emitted, mul_comm a k, Int.tdiv_eq_ediv_of_nonneg (mul_pos hk hapos).le]
    rw [hrest] at hdiv
    linarith
  have hbelow : 0 ≤ k - d ∧ k - d < k := by omega
  have hnonneg : 0 ≤ (k - d) + k * (a - 1) := by nlinarith
  constructor
  · rw [kept, hworth, Int.tdiv_eq_ediv_of_nonneg hnonneg, Int.add_mul_ediv_left _ _ hk.ne',
      Int.ediv_eq_zero_of_lt hbelow.1 hbelow.2]
    ring
  · rw [excess, hworth, Int.tmod_eq_emod_of_nonneg hnonneg, Int.add_mul_emod_self_left,
      Int.emod_eq_of_lt hbelow.1 hbelow.2]
    linarith

end TheKvm.Carry

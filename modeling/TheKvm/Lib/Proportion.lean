import Mathlib.Algebra.Order.Field.Rat
import Mathlib.Order.Monotone.Basic
import Mathlib.Tactic.FieldSimp
import Mathlib.Tactic.Linarith
import Mathlib.Tactic.Ring

/-!
Scaling a position of `0 .. A` to one of `0 .. B`, rounding down.

The way there and back never gains, and it loses one unit where it widens first. Going back and
forth again loses nothing more exactly when the one length divides the other, up to a factor two
where the way there widens.
-/

namespace TheKvm

/-- The position in `0 .. B` that stands where `v` stands in `0 .. A`. -/
def proportion (A B v : ℕ) : ℕ := v * B / A

namespace proportion

variable {A B v w : ℕ}

/-! ### One way -/

lemma mul_le (A B v : ℕ) : proportion A B v * A ≤ v * B := Nat.div_mul_le_self _ _

lemma lt_mul (hA : 0 < A) (B v : ℕ) : v * B < (proportion A B v + 1) * A := by
  rw [Nat.mul_comm (proportion A B v + 1)]
  exact Nat.lt_mul_div_succ _ hA

lemma mono (A B : ℕ) : Monotone (proportion A B) := fun _ _ h =>
  Nat.div_le_div_right (Nat.mul_le_mul_right B h)

@[simp] lemma zero (A B : ℕ) : proportion A B 0 = 0 := by simp [proportion]

lemma last (hA : 0 < A) (B : ℕ) : proportion A B A = B := Nat.mul_div_cancel_left B hA

lemma self (hA : 0 < A) (v : ℕ) : proportion A A v = v := Nat.mul_div_cancel v hA

lemma le (hA : 0 < A) (hv : v ≤ A) : proportion A B v ≤ B :=
  (mono A B hv).trans_eq (last hA B)

/-- Widening keeps positions apart. -/
lemma strictMono (hA : 0 < A) (h : A ≤ B) : StrictMono (proportion A B) := by
  intro v w hvw
  have hstep : v * B + A ≤ w * B := by
    calc v * B + A ≤ v * B + B := Nat.add_le_add_left h _
      _ = (v + 1) * B := (Nat.succ_mul v B).symm
      _ ≤ w * B := Nat.mul_le_mul_right B hvw
  calc proportion A B v + 1 = (v * B + A) / A := (Nat.add_div_right _ hA).symm
    _ ≤ w * B / A := Nat.div_le_div_right hstep

/-- Narrowing reaches every position. -/
lemma exists_eq (hB : 0 < B) (h : B ≤ A) (hw : w ≤ B) : ∃ v ≤ A, proportion A B v = w := by
  have hA : 0 < A := by omega
  -- The first position that is not before `w` is less than one of the wide units past it.
  refine ⟨(w * A + (B - 1)) / B, ?_, ?_⟩
  · have hle : w * A ≤ A * B := by
      rw [Nat.mul_comm A]
      exact Nat.mul_le_mul_right A hw
    rw [Nat.div_le_iff_le_mul_add_pred hB, Nat.mul_comm B]
    omega
  · set v := (w * A + (B - 1)) / B with hv
    have hlow : w * A ≤ v * B := by
      have := Nat.lt_mul_div_succ (w * A + (B - 1)) hB
      rw [← hv, Nat.mul_succ, Nat.mul_comm B] at this
      omega
    have hhigh : v * B ≤ w * A + (B - 1) := Nat.div_mul_le_self _ _
    refine Nat.div_eq_of_lt_le hlow ?_
    rw [Nat.succ_mul]
    omega

/-! ### There and back -/

/-- The way there and back never gains. -/
lemma back_le (hB : 0 < B) (v : ℕ) : proportion B A (proportion A B v) ≤ v := by
  rw [proportion, Nat.div_le_iff_le_mul_add_pred hB]
  have := mul_le A B v
  rw [Nat.mul_comm v] at this
  omega

/-- Where the way there is exact, nothing is lost. -/
lemma back_of_dvd (hB : 0 < B) (h : A ∣ v * B) :
    proportion B A (proportion A B v) = v := by
  rw [proportion, proportion, Nat.div_mul_cancel h, Nat.mul_div_cancel v hB]

/-- Where a widening way there is not exact, one unit is lost. -/
lemma back_of_not_dvd (hA : 0 < A) (hAB : A ≤ B) (h : ¬A ∣ v * B) :
    proportion B A (proportion A B v) + 1 = v := by
  have hrest : 0 < v * B % A := Nat.pos_of_ne_zero fun h0 => h (Nat.dvd_of_mod_eq_zero h0)
  have hlt := Nat.mod_lt (v * B) hA
  have hsplit : proportion A B v * A + v * B % A = v * B := Nat.div_add_mod' _ _
  obtain ⟨u, rfl⟩ : ∃ u, v = u + 1 := by
    cases v with
    | zero => exact absurd (by simp) h
    | succ u => exact ⟨u, rfl⟩
  have hmul : (u + 1) * B = u * B + B := Nat.succ_mul u B
  congr 1
  refine Nat.div_eq_of_lt_le (by omega) ?_
  rw [Nat.succ_mul]
  omega

lemma back_cases (hA : 0 < A) (hAB : A ≤ B) (v : ℕ) :
    proportion B A (proportion A B v) = v ∨ proportion B A (proportion A B v) + 1 = v := by
  by_cases h : A ∣ v * B
  · exact .inl (back_of_dvd (by omega) h)
  · exact .inr (back_of_not_dvd hA hAB h)

/-- What the way there and back loses, in wide units. -/
lemma lt_back (hA : 0 < A) (hB : 0 < B) (v : ℕ) :
    (v : ℚ) < proportion B A (proportion A B v) + 1 + A / B := by
  have h₁ : v * B < proportion A B v * A + A := by
    have := lt_mul hA B v
    rwa [Nat.succ_mul] at this
  have h₂ := lt_mul hB A (proportion A B v)
  have h : v * B < (proportion B A (proportion A B v) + 1) * B + A := by omega
  have hq : (v : ℚ) * B < (proportion B A (proportion A B v) + 1) * B + A := by exact_mod_cast h
  have hBq : (0 : ℚ) < B := by exact_mod_cast hB
  rw [← mul_lt_mul_iff_of_pos_right hBq]
  calc (v : ℚ) * B < (proportion B A (proportion A B v) + 1) * B + A := hq
    _ = (proportion B A (proportion A B v) + 1 + A / B) * B := by field_simp

/-! ### Back and forth -/

/-- The way to `0 .. B` and back. -/
def roundTrip (A B v : ℕ) : ℕ := proportion B A (proportion A B v)

lemma roundTrip_le (hB : 0 < B) (v : ℕ) : roundTrip A B v ≤ v := back_le hB v

lemma iterate_roundTrip_le (hB : 0 < B) (n v : ℕ) : (roundTrip A B)^[n] v ≤ v := by
  induction n with
  | zero => exact Nat.le_refl _
  | succ n ih =>
    rw [Function.iterate_succ_apply']
    exact (roundTrip_le hB _).trans ih

/-- A widening way there settles at once exactly when no position is off by a third or more. -/
lemma settles_widening (hA : 0 < A) (h : A ≤ B) :
    (∀ v ≤ A, roundTrip A B (roundTrip A B v) = roundTrip A B v) ↔ A ∣ 2 * B := by
  have hB : 0 < B := by omega
  constructor
  · intro hs
    by_contra h2
    have hA2 : 2 ≤ A := by
      by_contra hc
      exact h2 (by rw [show A = 1 by omega]; exact one_dvd _)
    have hone : roundTrip A B 2 = 1 := Nat.succ_injective (back_of_not_dvd hA h h2)
    have hz := hs 2 hA2
    rw [hone] at hz
    -- One loses nothing only where `A` divides `B`, and then two loses nothing either.
    have h1 : A ∣ 1 * B := by
      by_contra h1
      have : roundTrip A B 1 + 1 = 1 := back_of_not_dvd hA h h1
      omega
    rw [Nat.one_mul] at h1
    exact h2 (h1.mul_left 2)
  · intro h2 v _
    by_cases hv : A ∣ v * B
    · have : roundTrip A B v = v := back_of_dvd hB hv
      rw [this, this]
    · have hlost : roundTrip A B v + 1 = v := back_of_not_dvd hA h hv
      -- The odd positions are the ones that are off, and the one before is even.
      refine back_of_dvd hB ?_
      rcases Nat.even_or_odd' v with ⟨k, rfl | rfl⟩
      · exact absurd ((h2.mul_left k).trans (dvd_of_eq (by ring))) hv
      · rw [show roundTrip A B (2 * k + 1) = 2 * k by omega]
        exact (h2.mul_left k).trans (dvd_of_eq (by ring))

/-- A narrowing way there settles at once exactly when the narrow length divides the wide one. -/
lemma settles_narrowing (hB : 0 < B) (h : B ≤ A) :
    (∀ v ≤ A, roundTrip A B (roundTrip A B v) = roundTrip A B v) ↔ B ∣ A := by
  have hA : 0 < A := by omega
  constructor
  · intro hs
    obtain ⟨v, hv, hone⟩ := exists_eq (w := 1) hB h hB
    by_contra hd
    have hlost : proportion A B (proportion B A 1) + 1 = 1 :=
      back_of_not_dvd hB h (by rwa [Nat.one_mul])
    have hback := hs v hv
    rw [roundTrip, roundTrip, hone, show proportion A B (proportion B A 1) = 0 by omega,
      zero] at hback
    have := strictMono hB h (show 0 < 1 by omega)
    rw [zero] at this
    omega
  · intro hd v _
    rw [roundTrip, roundTrip, back_of_dvd hA (hd.mul_left _)]

/-- **When going back and forth settles at once.** -/
theorem roundTrip_settles_iff (hA : 0 < A) (hB : 0 < B) :
    (∀ v ≤ A, roundTrip A B (roundTrip A B v) = roundTrip A B v) ↔ A ∣ 2 * B ∨ B ∣ A := by
  rcases Nat.le_total A B with h | h
  · rw [settles_widening hA h]
    refine ⟨.inl, fun hd => hd.elim id fun hd => ?_⟩
    rw [Nat.le_antisymm h (Nat.le_of_dvd hA hd)]
    exact Dvd.intro_left 2 rfl
  · rw [settles_narrowing hB h]
    refine ⟨.inr, fun hd => hd.elim (fun ⟨k, hk⟩ => ?_) id⟩
    -- Only `2 * B = A` or `B = A` is left: two narrow lengths are no three wide ones.
    rcases Nat.lt_or_ge k 3 with hk3 | hk3
    · obtain rfl | rfl | rfl : k = 0 ∨ k = 1 ∨ k = 2 := by omega
      · omega
      · exact ⟨2, by omega⟩
      · exact ⟨1, by omega⟩
    · have := Nat.mul_le_mul_left A hk3
      omega

/-- Going back and forth never strays further than the first time exactly when it settles. -/
theorem iterate_settles_iff (hA : 0 < A) (hB : 0 < B) :
    (∀ v ≤ A, ∀ n ≥ 1, v - (roundTrip A B)^[n] v ≤ v - roundTrip A B v) ↔
      A ∣ 2 * B ∨ B ∣ A := by
  rw [← roundTrip_settles_iff hA hB]
  constructor
  · intro h v hv
    have hfirst := roundTrip_le (A := A) hB v
    have hsecond := roundTrip_le (A := A) hB (roundTrip A B v)
    have := h v hv 2 (by omega)
    rw [Function.iterate_succ_apply', Function.iterate_one] at this
    omega
  · intro h v hv n hn
    obtain ⟨m, rfl⟩ := Nat.exists_eq_add_of_le' hn
    have hfix : (roundTrip A B)^[m + 1] v = roundTrip A B v := by
      induction m with
      | zero => rfl
      | succ m ih => rw [Function.iterate_succ_apply', ih (by omega), h v hv]
    rw [hfix]

end proportion

end TheKvm

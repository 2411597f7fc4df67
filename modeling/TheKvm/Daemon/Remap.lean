import Mathlib.Data.Nat.Dist
import TheKvm.Core.Mapping
import TheKvm.Daemon.RemoteInput

/-!
A pointer position that is handed from one screen to the other and back.

Each mapping keeps the order, the end points and the range, but rounding down loses up to a pixel,
and the next round trip may lose another one. The loss stops after the first round trip only where
one span divides the other, up to a factor two.
-/

namespace TheKvm

/-- `scale_coordinate` is `map_coordinate`, exact in the widths of the code. -/
lemma toNat_scaleCoordinate (value sourceSpan targetSpan : UInt32) :
    (mapCoordinateU32 value sourceSpan targetSpan).toNat =
      scaleCoordinate value.toNat sourceSpan.toNat targetSpan.toNat :=
  mapCoordinateU32_toNat value sourceSpan targetSpan

/-! ### One axis -/

def ScreenGeometry.span (axis : Axis) (geometry : ScreenGeometry) : ℕ :=
  axis.of (geometry.width.toNat, geometry.height.toNat)

/-- A position that is handed over once. -/
def handOver (source target : ScreenGeometry) (p : ℕ × ℕ) : ℕ × ℕ :=
  remapPosition p.1 p.2 (some source) target

/-- A position that is handed over and handed back. -/
def handBack (source target : ScreenGeometry) (p : ℕ × ℕ) : ℕ × ℕ :=
  handOver target source (handOver source target p)

/-- Along an axis the mapping keeps the order, the end points and the range, it changes nothing
between equal spans, and no number of round trips strays further than the first one. -/
structure NoDrift (axis : Axis) (source target : ScreenGeometry) : Prop where
  mono : ∀ p q, axis.of p ≤ axis.of q →
    axis.of (handOver source target p) ≤ axis.of (handOver source target q)
  first : ∀ p, axis.of p = 0 → axis.of (handOver source target p) = 0
  last : ∀ p, axis.of p = source.span axis - 1 →
    axis.of (handOver source target p) = target.span axis - 1
  inside : ∀ p, axis.of (handOver source target p) < target.span axis
  same : source.span axis = target.span axis → ∀ p, axis.of p < source.span axis →
    axis.of (handOver source target p) = axis.of p
  settled : ∀ p, axis.of p < source.span axis → ∀ n ≥ 1,
    Nat.dist (axis.of ((handBack source target)^[n] p)) (axis.of p) ≤
      Nat.dist (axis.of (handBack source target p)) (axis.of p)

/-- A geometry with pixels, the only kind that a validated message or layout has. -/
def ScreenGeometry.HasPixels (geometry : ScreenGeometry) : Prop :=
  0 < geometry.width ∧ 0 < geometry.height

lemma hasPixels_of_validateGeometry {geometry : ScreenGeometry}
    (h : validateGeometry geometry = .ok ()) : geometry.HasPixels := by
  simp only [validateGeometry, check_ok, rejectIf_ok, Bool.or_eq_false_iff,
    beq_eq_false_iff_ne] at h
  obtain ⟨⟨hw, hh⟩, -⟩ := h
  exact ⟨UInt32.pos_iff_ne_zero.mpr hw, UInt32.pos_iff_ne_zero.mpr hh⟩

section

variable {axis : Axis} {source target : ScreenGeometry}

/-- The mapping is a proportion along each axis. -/
lemma of_handOver (hs : source.HasPixels) (h2 : 2 ≤ source.span axis)
    (ht : 2 ≤ target.span axis) (p : ℕ × ℕ) :
    axis.of (handOver source target p) =
      proportion (source.span axis - 1) (target.span axis - 1)
        (min (axis.of p) (source.span axis - 1)) := by
  have hsome : (some source).filter (fun geometry : ScreenGeometry =>
      0 < geometry.width ∧ 0 < geometry.height) = some source := by
    rw [Option.filter_some, if_pos (decide_eq_true (p := _ ∧ _) hs)]
  simp only [handOver, remapPosition, hsome]
  cases axis <;>
    · simp only [ScreenGeometry.span, Axis.of] at h2 ht ⊢
      rw [scaleCoordinate, if_neg (by omega)]
      rfl

lemma of_handOver_lt (hs : source.HasPixels) (h2 : 2 ≤ source.span axis)
    (ht : 2 ≤ target.span axis) (p : ℕ × ℕ) :
    axis.of (handOver source target p) < target.span axis := by
  have hle : proportion (source.span axis - 1) (target.span axis - 1)
      (min (axis.of p) (source.span axis - 1)) ≤ target.span axis - 1 :=
    proportion.le (by omega) (Nat.min_le_right _ _)
  rw [of_handOver hs h2 ht]
  omega

/-- A position in range that is handed over and back makes the round trip of its proportion. -/
lemma of_handBack (hs : source.HasPixels) (ht : target.HasPixels) (h2 : 2 ≤ source.span axis)
    (h2' : 2 ≤ target.span axis) {p : ℕ × ℕ} (hp : axis.of p < source.span axis) :
    axis.of (handBack source target p) =
      proportion.roundTrip (source.span axis - 1) (target.span axis - 1) (axis.of p) := by
  have hlt := of_handOver_lt hs h2 h2' p
  rw [handBack, of_handOver ht h2' h2, Nat.min_eq_left (by omega), of_handOver hs h2 h2',
    Nat.min_eq_left (by omega)]
  rfl

lemma of_iterate_handBack (hs : source.HasPixels) (ht : target.HasPixels)
    (h2 : 2 ≤ source.span axis) (h2' : 2 ≤ target.span axis) {p : ℕ × ℕ}
    (hp : axis.of p < source.span axis) (n : ℕ) :
    axis.of ((handBack source target)^[n] p) =
      (proportion.roundTrip (source.span axis - 1) (target.span axis - 1))^[n] (axis.of p) ∧
    axis.of ((handBack source target)^[n] p) < source.span axis := by
  induction n with
  | zero => exact ⟨rfl, hp⟩
  | succ n ih =>
    obtain ⟨heq, hlt⟩ := ih
    rw [Function.iterate_succ_apply', Function.iterate_succ_apply']
    refine ⟨by rw [of_handBack hs ht h2 h2' hlt, heq], ?_⟩
    exact of_handOver_lt ht h2' h2 _

/-- The loss of the round trips after the first one is what divides the spans. -/
lemma settled_iff (hs : source.HasPixels) (ht : target.HasPixels) (h2 : 2 ≤ source.span axis)
    (h2' : 2 ≤ target.span axis) :
    (∀ p, axis.of p < source.span axis → ∀ n ≥ 1,
      Nat.dist (axis.of ((handBack source target)^[n] p)) (axis.of p) ≤
        Nat.dist (axis.of (handBack source target p)) (axis.of p)) ↔
    source.span axis - 1 ∣ 2 * (target.span axis - 1) ∨
      target.span axis - 1 ∣ source.span axis - 1 := by
  have hB : 0 < target.span axis - 1 := by omega
  have hof : ∀ v : ℕ, axis.of (v, v) = v := fun v => by cases axis <;> rfl
  rw [← proportion.iterate_settles_iff (by omega) hB]
  have hdist : ∀ {p : ℕ × ℕ}, axis.of p < source.span axis → ∀ n,
      Nat.dist (axis.of ((handBack source target)^[n] p)) (axis.of p) =
        axis.of p - (proportion.roundTrip (source.span axis - 1)
          (target.span axis - 1))^[n] (axis.of p) := fun hp n => by
    rw [(of_iterate_handBack hs ht h2 h2' hp n).1]
    exact Nat.dist_eq_sub_of_le (proportion.iterate_roundTrip_le hB n _)
  constructor
  · intro h v hv n hn
    have hp : axis.of (v, v) < source.span axis := by rw [hof]; omega
    have hn' := h (v, v) hp n hn
    have h1 := hdist hp 1
    rw [Function.iterate_one, Function.iterate_one] at h1
    rwa [hdist hp, h1, hof] at hn'
  · intro h p hp n hn
    have h1 := hdist hp 1
    rw [Function.iterate_one, Function.iterate_one] at h1
    rw [hdist hp, h1]
    exact h _ (by omega) n hn

/-- **When handing over and back does not drift.** Order, end points, range and equal spans are
always kept; the round trips after the first one add no error exactly when the last source pixel
divides twice the last target pixel or the last target pixel divides the last source pixel. -/
theorem noDrift_iff (hs : source.HasPixels) (ht : target.HasPixels) (h2 : 2 ≤ source.span axis)
    (h2' : 2 ≤ target.span axis) :
    NoDrift axis source target ↔
      source.span axis - 1 ∣ 2 * (target.span axis - 1) ∨
        target.span axis - 1 ∣ source.span axis - 1 := by
  have hA : 0 < source.span axis - 1 := by omega
  rw [← settled_iff hs ht h2 h2']
  refine ⟨fun h => h.settled, fun h => ?_⟩
  exact
    { mono := fun p q hpq => by
        rw [of_handOver hs h2 h2', of_handOver hs h2 h2']
        exact proportion.mono _ _ (by omega)
      first := fun p hp => by
        rw [of_handOver hs h2 h2', hp, Nat.zero_min, proportion.zero]
      last := fun p hp => by
        rw [of_handOver hs h2 h2', hp, Nat.min_self, proportion.last hA]
      inside := fun p => of_handOver_lt hs h2 h2' p
      same := fun heq p hp => by
        rw [of_handOver hs h2 h2', ← heq, Nat.min_eq_left (by omega), proportion.self hA]
      settled := h }

end

/-! ### Two common screens -/

def fullHd : ScreenGeometry := ⟨1, 1920, 1080⟩

def quadHd : ScreenGeometry := ⟨1, 2560, 1440⟩

def twiceFullHd : ScreenGeometry := ⟨1, 3839, 2159⟩

/-- Between a screen and one of twice its last pixel nothing drifts. -/
theorem twice_full_hd_noDrift : fullHd.HasPixels ∧ twiceFullHd.HasPixels ∧
    2 ≤ fullHd.span .horizontal ∧ 2 ≤ twiceFullHd.span .horizontal ∧
    NoDrift .horizontal fullHd twiceFullHd := by
  have hs : fullHd.HasPixels := ⟨by decide, by decide⟩
  have ht : twiceFullHd.HasPixels := ⟨by decide, by decide⟩
  exact ⟨hs, ht, by decide, by decide,
    (noDrift_iff hs ht (by decide) (by decide)).mpr (.inl ⟨4, by decide⟩)⟩

/-- The third column of a full HD screen comes back one pixel to the left each time. -/
theorem full_hd_drifts : (handBack fullHd quadHd (2, 540)).1 = 1 ∧
    ((handBack fullHd quadHd)^[2] (2, 540)).1 = 0 ∧ ¬NoDrift .horizontal fullHd quadHd := by
  have h1 : (handBack fullHd quadHd (2, 540)).1 = 1 := by decide
  have h2 : ((handBack fullHd quadHd)^[2] (2, 540)).1 = 0 := by decide
  refine ⟨h1, h2, fun h => ?_⟩
  have := h.settled (2, 540) (by decide) 2 (by decide)
  simp only [Axis.of, h1, h2] at this
  exact absurd this (by decide)

end TheKvm

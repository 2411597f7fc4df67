import TheKvm.Lib.Trace
import TheKvm.Platform.Touchpad

/-!
Whether a touchpad drifts.

What an axis emits stays with what the fingers moved exactly if its units divide 120 or are a
multiple of it. On any other sensor every round trip of the fingers may emit more than it should,
and on a coarse one the fingers need not even move.
-/

namespace TheKvm.Ptp

open PinchTap (Contact midOf spreadOf)

/-! ### The property -/

/-- One report with two contacts. -/
structure Report where
  now : Instant
  a : Contact
  b : Contact

namespace PtpPan

/-- What a report emits, beside how far the fingers moved. -/
def step (s : PtpPan) (r : Report) : PtpPan × (ℤ × ℤ) × (ℤ × ℤ) :=
  ((s.feed r.now [r.a, r.b]).1, (s.feed r.now [r.a, r.b]).2, s.moved r.a r.b)

def acc (s : PtpPan) : PanAxis → ℤ
  | .x => s.accX
  | .y => s.accY

def units (s : PtpPan) : PanAxis → ℤ
  | .x => s.unitsPerDetentX
  | .y => s.unitsPerDetentY

/-- A pan before its first report, with `units` on one axis. -/
def fresh (axis : PanAxis) (units other : ℤ) : PtpPan :=
  match axis with
  | .x => new units other
  | .y => new other units

/-- The pan behind some reports. -/
abbrev after (axis : PanAxis) (units other : ℤ) (l : List Report) : PtpPan :=
  Trace.final step (fresh axis units other) l

/-- The report neither locks the axis out nor has its output cut off. -/
def Free (axis : PanAxis) (s : PtpPan) (r : Report) : Prop :=
  (step s r).1.lock ≠ some axis.other ∧
    |due (max (s.units axis) 1) (s.acc axis + axis.of (s.moved r.a r.b))| ≤ 120000

instance (axis : PanAxis) (s : PtpPan) (r : Report) : Decidable (Free axis s r) :=
  inferInstanceAs (Decidable (_ ∧ _))

/-- A run of reports that are all free on the axis. -/
def FreeRun (axis : PanAxis) (units other : ℤ) (l : List Report) : Prop :=
  Trace.Each (fun m r => Free axis (after axis units other m) r) l

def outputs (axis : PanAxis) (units other : ℤ) (l : List Report) : List ((ℤ × ℤ) × (ℤ × ℤ)) :=
  Trace.outputs step (fresh axis units other) l

/-- How far what was emitted is from what the fingers moved. -/
def drift (axis : PanAxis) (units other : ℤ) (l : List Report) : ℤ :=
  units * ((outputs axis units other l).map fun o => axis.of o.1).sum -
    120 * ((outputs axis units other l).map fun o => axis.of o.2).sum

/-- An axis of the pan does not drift, and fingers that rest on it do not scroll. -/
structure Driftless (axis : PanAxis) (units : ℤ) : Prop where
  bounded : ∃ bound, ∀ other l, FreeRun axis units other l → |drift axis units other l| < bound
  rests : ∀ other l r, FreeRun axis units other l →
    axis.of ((after axis units other l).moved r.a r.b) = 0 →
    axis.of (step (after axis units other l) r).2.1 = 0

end PtpPan

namespace PtpPinch

/-- One report with two contacts, and whether the pan owns its gesture. -/
structure PinchReport where
  a : Contact
  b : Contact
  panOwned : Bool

variable {R : Type} (rates : Rates R)

/-- What a report zooms, beside how far the fingers went apart if it counts. -/
def step (s : PtpPinch R) (r : PinchReport) : PtpPinch R × ℤ × ℤ :=
  let fed := s.feed rates r.panOwned [r.a, r.b]
  (fed.1, fed.2.1,
    if fed.1.engaged = true ∧ ¬s.Scrolls rates r.a r.b then s.spreadStep r.a r.b else 0)

/-- The pinch behind some reports. -/
abbrev after (units : ℤ) (l : List PinchReport) : PtpPinch R :=
  Trace.final (step rates) (new rates units) l

/-- Reports behind each of which a gesture is engaged, from its engagement on. -/
structure Episode (units : ℤ) (m e : List PinchReport) : Prop where
  before : (after rates units m).engaged = false
  during : ∀ k, k <+: e → k ≠ [] → (after rates units (m ++ k)).engaged = true

/-- What the report zooms is not cut off. -/
def Whole (s : PtpPinch R) (r : PinchReport) : Prop :=
  s.Scrolls rates r.a r.b ∨
    |due (max s.unitsPerDetent 1) (s.acc + s.spreadStep r.a r.b)| ≤ 120000

/-- No output of the episode is cut off. -/
def WholeRun (units : ℤ) (m e : List PinchReport) : Prop :=
  Trace.Each (fun k r => Whole rates (after rates units (m ++ k)) r) e

def outputs (units : ℤ) (m e : List PinchReport) : List (ℤ × ℤ) :=
  Trace.outputs (step rates) (after rates units m) e

/-- How far what was zoomed is from what the fingers went apart. -/
def drift (units : ℤ) (m e : List PinchReport) : ℤ :=
  units * ((outputs rates units m e).map Prod.fst).sum -
    120 * ((outputs rates units m e).map Prod.snd).sum

/-- The pinch does not drift while it is engaged, and fingers that rest do not zoom. -/
structure Driftless (units : ℤ) : Prop where
  bounded : ∃ bound, ∀ (R : Type) (rates : Rates R) m e, Episode rates units m e →
    WholeRun rates units m e → |drift rates units m e| < bound
  rests : ∀ (R : Type) (rates : Rates R) m e r, Episode rates units m e →
    WholeRun rates units m e → (after rates units (m ++ e)).spreadStep r.a r.b = 0 →
      (step rates (after rates units (m ++ e)) r).2.1 = 0

end PtpPinch

/-- A touchpad of these units neither scrolls nor zooms what the fingers did not do. -/
structure Driftless (units : ℤ) : Prop where
  pan : ∀ axis, PtpPan.Driftless axis units
  pinch : PtpPinch.Driftless units

/-! ### What one emission does -/

variable {u : ℤ} {a : ℤ}

lemma tdiv_eq_one (hu : 0 < u) {v : ℤ} (hle : u ≤ v) (hlt : v < 2 * u) : v.tdiv u = 1 := by
  rw [Int.tdiv_eq_ediv_of_nonneg (hu.le.trans hle)]
  refine le_antisymm (Int.lt_add_one_iff.mp (Int.ediv_lt_of_lt_mul hu ?_))
    (Int.le_ediv_of_mul_le hu ?_)
  · linarith
  · linarith

lemma due_zero (u : ℤ) : due u 0 = 0 := Int.zero_tdiv u

/-- The limits of 64 bits do not show in what they are divided to. -/
lemma saturate_tdiv (hu : 1 ≤ u) (hmax : u ≤ i64Max) {v : ℤ} (h : |v| ≤ i64Max ∨ |v| < 2 * u) :
    (Bank.saturate i64Max v).tdiv u = v.tdiv u := by
  rcases le_or_gt |v| i64Max with hle | hgt
  · rw [Bank.saturate_of_abs_le hle]
  · have hlt := h.resolve_left (not_le.mpr hgt)
    rcases le_total 0 v with hpos | hneg
    · rw [abs_of_nonneg hpos] at hlt hgt
      have hsat : Bank.saturate i64Max v = i64Max := by rw [Bank.saturate]; omega
      rw [hsat, tdiv_eq_one (by omega) hmax (by omega), tdiv_eq_one (by omega) (by omega) hlt]
    · rw [abs_of_nonpos hneg] at hlt hgt
      have hsat : Bank.saturate i64Max v = -(i64Max + 1) := by rw [Bank.saturate]; omega
      rw [hsat, ← neg_neg v, Int.neg_tdiv, Int.neg_tdiv,
        tdiv_eq_one (by omega) (by omega) (by omega), tdiv_eq_one (by omega) (by omega) hlt]

lemma due_eq (hu : 1 ≤ u) (hmax : u ≤ i64Max) (h : |a * 120| ≤ i64Max ∨ |a * 120| < 2 * u) :
    due u a = Carry.emitted u 120 a := saturate_tdiv hu hmax h

/-- What is not cut off is emitted, and what is kept is rounded. -/
lemma emit_eq (hu : 1 ≤ u) (hmax : u ≤ i64Max) (h : |a * 120| ≤ i64Max ∨ |a * 120| < 2 * u)
    (hfit : |due u a| ≤ 120000) : emit u a = (Carry.emitted u 120 a, Carry.kept u 120 a) := by
  have hrange := abs_le.mp hfit
  have hworth : |Carry.emitted u 120 a * u| ≤ i64Max := by
    rcases h with hsmall | hless
    · exact Carry.abs_worth_le.trans hsmall
    · have hone : |Carry.emitted u 120 a| ≤ 1 :=
        (Bank.abs_tdiv_le_iff (by omega)).mpr (by linarith)
      have hunits := abs_le.mp hone
      exact abs_le.mpr ⟨by nlinarith, by nlinarith⟩
  rw [emit, pin.of_mem hrange.1 hrange.2, due_eq hu hmax h, Bank.saturate_of_abs_le hworth]
  rfl

/-- The units divide a detent into 120ths, or 120ths into units. -/
def Fits (u : ℤ) : Prop := u ∣ 120 ∨ 120 ∣ u

/-- With units that fit, nothing is emitted that was not put in, and less than a 120th is kept. -/
lemma Fits.emit (hfits : Fits u) (hu : 1 ≤ u) (hmax : u ≤ i64Max) {acc d : ℤ}
    (hacc : |120 * acc| < u) (hd : |d| < 2 ^ 34) (hfit : |due u (acc + d)| ≤ 120000) :
    u * (emit u (acc + d)).1 + 120 * (emit u (acc + d)).2 = 120 * (acc + d) ∧
      |120 * (emit u (acc + d)).2| < u := by
  have hsmall : |(acc + d) * 120| ≤ i64Max ∨ |(acc + d) * 120| < 2 * u := by
    rw [abs_lt] at hacc hd
    rw [abs_le, abs_lt, i64Max]
    omega
  rw [emit_eq hu hmax hsmall hfit]
  have hsum := Carry.emitted_add_kept (u := u) (k := 120) (a := acc + d)
  rw [Carry.excess_of_dvd hfits, add_zero] at hsum
  exact ⟨hsum, Carry.kept_lt (by omega) hfits⟩

/-- What is less than a 120th emits nothing. -/
lemma emit_of_lt (hu : 1 ≤ u) (hmax : u ≤ i64Max) (h : |120 * a| < u) : (emit u a).1 = 0 := by
  have hsmall : |a * 120| < 2 * u := by
    rw [mul_comm]
    omega
  have hnone : due u a = 0 := by
    rw [due_eq hu hmax (Or.inr hsmall)]
    exact Carry.emitted_of_lt h
  rw [emit, hnone]
  exact pin.of_mem (by decide) (by decide)

/-! ### The pan, one axis at a time -/

lemma midOf_bounds (a b : Contact) (axis : PanAxis) :
    -2 ^ 31 ≤ axis.of (midOf a b) ∧ axis.of (midOf a b) ≤ 2 ^ 31 := by
  have htdiv : ∀ x y : Int32, -2 ^ 31 ≤ (x.toInt + y.toInt).tdiv 2 ∧
      (x.toInt + y.toInt).tdiv 2 ≤ 2 ^ 31 := by
    intro x y
    have hx := Int32.toInt_bounds x
    have hy := Int32.toInt_bounds y
    have hdiv := Int.tmod_add_mul_tdiv (x.toInt + y.toInt) 2
    have hmod := abs_lt.mp (Bank.abs_tmod_lt (by decide : (0 : ℤ) < 2) (x.toInt + y.toInt))
    omega
  cases axis
  · exact htdiv _ _
  · exact htdiv _ _

namespace PtpPan

variable {s : PtpPan} {r : Report} {axis : PanAxis} {p : ℤ × ℤ}

lemma step_first (h : s.prev = none) :
    step s r = ({ s with prev := some (midOf r.a r.b) }, (0, 0), (0, 0)) := by
  simp only [step, feed, moved, h, Option.getD_none, sub_self]

lemma acc_move (s : PtpPan) (now : Instant) (d : ℤ × ℤ) (axis : PanAxis) :
    (s.move now d).acc axis = s.acc axis + axis.of d ∧
      (s.move now d).units axis = s.units axis ∧ (s.move now d).prev = s.prev := by
  unfold move
  cases axis <;> split_ifs <;> exact ⟨rfl, rfl, rfl⟩

lemma emits_same (s : PtpPan) (axis : PanAxis) :
    s.emits.1.lock = s.lock ∧ s.emits.1.units axis = s.units axis ∧ s.emits.1.prev = s.prev := by
  unfold emits
  rcases s.lock with _ | (_ | _) <;> cases axis <;> exact ⟨rfl, rfl, rfl⟩

lemma emits_free (h : s.lock ≠ some axis.other) :
    axis.of s.emits.2 = (emit (max (s.units axis) 1) (s.acc axis)).1 ∧
      s.emits.1.acc axis = (emit (max (s.units axis) 1) (s.acc axis)).2 := by
  unfold emits
  rcases hlock : s.lock with _ | (_ | _) <;> cases axis <;>
    first
    | exact ⟨rfl, rfl⟩
    | exact absurd hlock h

lemma emits_locked (h : s.lock = some axis.other) : axis.of s.emits.2 = 0 := by
  unfold emits
  rw [h]
  cases axis <;> rfl

/-- The state that a report behind the first one emits from. -/
def banked (s : PtpPan) (r : Report) : PtpPan :=
  ({ s with prev := some (midOf r.a r.b) } : PtpPan).move r.now (s.moved r.a r.b)

lemma step_later (h : s.prev = some p) :
    (step s r).1 = (s.banked r).emits.1 ∧ (step s r).2.1 = (s.banked r).emits.2 := by
  simp only [step, feed, h, banked]
  exact ⟨trivial, trivial⟩

lemma banked_same (s : PtpPan) (r : Report) (axis : PanAxis) :
    (s.banked r).acc axis = s.acc axis + axis.of (s.moved r.a r.b) ∧
      (s.banked r).units axis = s.units axis ∧ (s.banked r).prev = some (midOf r.a r.b) := by
  obtain ⟨hacc, hunits, hprev⟩ :=
    acc_move { s with prev := some (midOf r.a r.b) } r.now (s.moved r.a r.b) axis
  refine ⟨hacc.trans ?_, hunits.trans ?_, hprev⟩
  · cases axis <;> rfl
  · cases axis <;> rfl

/-- A report behind the first one, on an axis that is not locked out. -/
lemma step_free (axis : PanAxis) (h : s.prev = some p)
    (hlock : (step s r).1.lock ≠ some axis.other) :
    axis.of (step s r).2.1 =
        (emit (max (s.units axis) 1) (s.acc axis + axis.of (s.moved r.a r.b))).1 ∧
      (step s r).1.acc axis =
        (emit (max (s.units axis) 1) (s.acc axis + axis.of (s.moved r.a r.b))).2 := by
  obtain ⟨hstate, hout⟩ := step_later (r := r) h
  obtain ⟨hacc, hunits, -⟩ := banked_same s r axis
  rw [hstate, (emits_same _ axis).1] at hlock
  obtain ⟨hemits, hkept⟩ := emits_free hlock
  rw [hstate, hout, hemits, hkept, hacc, hunits]
  exact ⟨rfl, rfl⟩

lemma step_same (s : PtpPan) (r : Report) (axis : PanAxis) :
    (step s r).1.units axis = s.units axis ∧ (step s r).1.prev = some (midOf r.a r.b) := by
  rcases h : s.prev with _ | p
  · rw [step_first h]
    cases axis <;> exact ⟨rfl, rfl⟩
  · obtain ⟨-, hunits, hprev⟩ := banked_same s r axis
    obtain ⟨-, hunits', hprev'⟩ := emits_same (s.banked r) axis
    rw [(step_later h).1]
    exact ⟨hunits'.trans hunits, hprev'.trans hprev⟩

lemma moved_bounds {a b : Contact} (h : s.prev = some (midOf a b)) :
    |axis.of (s.moved r.a r.b)| < 2 ^ 34 := by
  have hx := midOf_bounds a b .x
  have hy := midOf_bounds a b .y
  have hx' := midOf_bounds r.a r.b .x
  have hy' := midOf_bounds r.a r.b .y
  rw [moved, h, Option.getD_some]
  simp only [PanAxis.of] at hx hy hx' hy'
  rw [abs_lt]
  cases axis <;> simp only [PanAxis.of] <;> omega

/-! ### Runs of the pan -/

variable {u other : ℤ} {l : List Report}

lemma drift_snoc (axis : PanAxis) (u other : ℤ) (l : List Report) (r : Report) :
    drift axis u other (l ++ [r]) = drift axis u other l +
      (u * axis.of (step (after axis u other l) r).2.1 -
        120 * axis.of ((after axis u other l).moved r.a r.b)) := by
  simp only [drift, outputs, Trace.outputs_snoc, List.map_append, List.map_singleton,
    List.sum_append, List.sum_singleton, step]
  ring

/-- What the state keeps of the reports so far. -/
structure Tracks (axis : PanAxis) (u other : ℤ) (l : List Report) (s : PtpPan) : Prop where
  same : s.units axis = u
  prev : ∀ p, s.prev = some p → ∃ a b, p = midOf a b
  small : |120 * s.acc axis| < u
  sum : drift axis u other l = -(120 * s.acc axis)

lemma tracks_after (hfits : Fits u) (hu : 1 ≤ u) (hmax : u ≤ i64Max)
    (hfree : FreeRun axis u other l) : Tracks axis u other l (after axis u other l) := by
  refine Trace.invariant (I := fun l s => Tracks axis u other l s) ?_ (fun m r h hr => ?_) hfree
  · have hfresh : (fresh axis u other).units axis = u ∧ (fresh axis u other).acc axis = 0 ∧
        (fresh axis u other).prev = none := by
      cases axis <;> exact ⟨rfl, rfl, rfl⟩
    refine ⟨hfresh.1, fun p hp => ?_, ?_, ?_⟩
    · rw [hfresh.2.2] at hp
      cases hp
    · rw [hfresh.2.1]
      exact hu
    · rw [hfresh.2.1]
      simp [drift, outputs]
  · obtain ⟨hunits, hprev⟩ := step_same (after axis u other m) r axis
    have hkeeps : |120 * (step (after axis u other m) r).1.acc axis| < u ∧
        drift axis u other (m ++ [r]) = -(120 * (step (after axis u other m) r).1.acc axis) := by
      rw [drift_snoc, h.sum]
      rcases hlast : (after axis u other m).prev with _ | p
      · rw [step_first hlast, moved, hlast]
        refine ⟨by cases axis <;> exact h.small, ?_⟩
        cases axis <;> simp [PanAxis.of, acc]
      · obtain ⟨a, b, rfl⟩ := h.prev p hlast
        obtain ⟨hout, hkept⟩ := step_free _ hlast hr.1
        have hfit := hr.2
        rw [h.same, max_eq_left hu] at hout hkept hfit
        obtain ⟨hsum, hsmall⟩ := hfits.emit hu hmax h.small (moved_bounds hlast) hfit
        rw [hkept, hout]
        exact ⟨hsmall, by linarith⟩
    refine ⟨hunits.trans h.same, fun p hp => ⟨r.a, r.b, ?_⟩, hkeeps.1, hkeeps.2⟩
    rw [hprev] at hp
    exact (Option.some.inj hp).symm

/-- An axis whose units fit stays within one 120th. -/
lemma driftless_of_fits (hfits : Fits u) (hu : 1 ≤ u) (hmax : u ≤ i64Max) (axis : PanAxis) :
    Driftless axis u where
  bounded := by
    refine ⟨u, fun other l hfree => ?_⟩
    have h := tracks_after hfits hu hmax hfree
    rw [h.sum, abs_neg]
    exact h.small
  rests other l r hfree hstill := by
    have h := tracks_after hfits hu hmax hfree
    rcases hlast : (after axis u other l).prev with _ | p
    · rw [step_first hlast]
      cases axis <;> rfl
    · by_cases hlock : (step (after axis u other l) r).1.lock = some axis.other
      · obtain ⟨hstate, hout⟩ := step_later (r := r) hlast
        rw [hstate, (emits_same _ axis).1] at hlock
        rw [hout]
        exact emits_locked hlock
      · rw [(step_free _ hlast hlock).1, h.same, max_eq_left hu, hstill, add_zero]
        exact emit_of_lt hu hmax h.small

/-! ### Fingers that go right and back -/

/-- Both fingers at `x`, on one line. -/
def at_ (x : ℤ) : Report := ⟨0, (Int32.ofInt x, 0), (Int32.ofInt x, 0)⟩

lemma midOf_at {x : ℤ} (hx : 0 ≤ x ∧ x < 2 ^ 31) : midOf (at_ x).a (at_ x).b = (x, 0) := by
  have hint : (Int32.ofInt x).toInt = x := Int32.toInt_ofInt_of_le (by omega) (by omega)
  have htwice : (x + x).tdiv 2 = x := by
    rw [← two_mul, Int.mul_tdiv_cancel_left _ (by decide)]
  simp only [midOf, at_, hint, htwice]
  rfl

/-- The fingers went along the line only, to `x`. -/
structure Level (u : ℤ) (s : PtpPan) (x acc : ℤ) : Prop where
  prev : s.prev = some (x, 0)
  acc : s.accX = acc
  units : s.unitsPerDetentX = u
  lock : s.lock ≠ some .y
  straight : s.gestY = 0

lemma move_level (now : Instant) (d : ℤ) (hlock : s.lock ≠ some .y) (hstraight : s.gestY = 0) :
    (s.move now (d, 0)).lock ≠ some .y ∧ (s.move now (d, 0)).gestY = 0 := by
  have hzero : Bank.saturate i64Max 0 = 0 := Bank.saturate_of_abs_le (by decide)
  have hpush : ∀ t : PtpPan, t.lock ≠ some .y → t.gestY = 0 → t.verdict ≠ some .y := by
    intro t hlock hstraight
    unfold verdict
    rcases ht : t.lock with _ | (_ | _)
    · simp only [hstraight, lockMinYUnits]
      split_ifs with hx hy
      · decide
      · omega
      · decide
    · simp
    · exact absurd ht hlock
  unfold move
  split_ifs <;> dsimp only
  · refine ⟨hpush _ ?_ ?_, ?_⟩ <;> simp [hzero]
  · refine ⟨hpush _ hlock ?_, ?_⟩ <;> simp [hstraight, hzero]

lemma emits_straight (s : PtpPan) : s.emits.1.gestY = s.gestY := by
  unfold emits
  rcases s.lock with _ | (_ | _) <;> rfl

/-- One more report of fingers on the line. -/
lemma Level.step {x y c : ℤ} (h : Level u s x c) (hu : 1 ≤ u) (hmax : u ≤ 2 ^ 29)
    (hy : 0 ≤ y ∧ y < 2 ^ 31) (hsum : |c + (y - x)| < 4 * u) :
    Level u (PtpPan.step s (at_ y)).1 y (Carry.kept u 120 (c + (y - x))) ∧
      (PtpPan.step s (at_ y)).2.1.1 = Carry.emitted u 120 (c + (y - x)) ∧
      (s.moved (at_ y).a (at_ y).b) = (y - x, 0) ∧ Free .x s (at_ y) := by
  have hmoved : s.moved (at_ y).a (at_ y).b = (y - x, 0) := by
    rw [moved, h.prev, midOf_at hy]
    rfl
  have hint : |(c + (y - x)) * 120| ≤ i64Max := by
    rw [abs_lt] at hsum
    rw [abs_le, i64Max]
    omega
  have hdue : |due u (c + (y - x))| ≤ 120000 := by
    rw [due_eq hu (hmax.trans (by decide)) (Or.inl hint), Carry.emitted,
      Bank.abs_tdiv_le_iff (by omega)]
    rw [abs_lt] at hsum ⊢
    omega
  have hemit := emit_eq hu (hmax.trans (by decide)) (Or.inl hint) hdue
  obtain ⟨hlock, hstraight⟩ := move_level
    (s := { s with prev := some (midOf (at_ y).a (at_ y).b) }) (at_ y).now (y - x) h.lock h.straight
  rw [← hmoved] at hlock hstraight
  obtain ⟨hstate, hout⟩ := step_later (r := at_ y) h.prev
  have hlock' : (PtpPan.step s (at_ y)).1.lock ≠ some .y := by
    rw [hstate, (emits_same _ .x).1]
    exact hlock
  obtain ⟨hemits, hkept⟩ := step_free .x h.prev hlock'
  obtain ⟨hunits, hprev⟩ := step_same s (at_ y) .x
  have hpan : s.units .x = u ∧ s.acc .x = c := ⟨h.units, h.acc⟩
  rw [hpan.1, hpan.2, hmoved, max_eq_left hu] at hemits hkept
  refine ⟨⟨?_, ?_, hunits.trans h.units, hlock', ?_⟩, ?_, hmoved, hlock', ?_⟩
  · rw [hprev, midOf_at hy]
  · exact hkept.trans (congrArg Prod.snd hemit)
  · rw [hstate, emits_straight]
    exact hstraight
  · exact hemits.trans (congrArg Prod.fst hemit)
  · rw [hpan.1, hpan.2, hmoved, max_eq_left hu]
    exact hdue

/-- What one more report on the line emits too much stays. -/
lemma Level.go {x y c : ℤ} (hfree : FreeRun .x u other l) (h : Level u (after .x u other l) x c)
    (hu : 1 ≤ u) (hmax : u ≤ 2 ^ 29) (hy : 0 ≤ y ∧ y < 2 ^ 31) (hsum : |c + (y - x)| < 4 * u) :
    FreeRun .x u other (l ++ [at_ y]) ∧
      Level u (after .x u other (l ++ [at_ y])) y (Carry.kept u 120 (c + (y - x))) ∧
      drift .x u other (l ++ [at_ y]) + 120 * Carry.kept u 120 (c + (y - x)) =
        drift .x u other l + 120 * c + Carry.excess u 120 (c + (y - x)) := by
  obtain ⟨hlevel, hout, hmoved, hstep⟩ := h.step hu hmax hy hsum
  refine ⟨Trace.each_snoc.mpr ⟨hfree, hstep⟩, ?_, ?_⟩
  · rw [after, Trace.final_snoc]
    exact hlevel
  · have hbalance := Carry.emitted_add_kept (u := u) (k := 120) (a := c + (y - x))
    rw [drift_snoc, hmoved]
    simp only [PanAxis.of, hout]
    linarith

/-- Fingers that go right in two steps and back in one have the pan emit at least one too much. -/
lemma Level.roundTrip {a c : ℤ} (hfree : FreeRun .x u other l)
    (h : Level u (after .x u other l) 0 c) (hu : 1 ≤ u) (hmax : u ≤ 2 ^ 29)
    (ha : 0 < a ∧ a < u) (hone : Carry.kept u 120 a = 1) (htoo : 120 ≤ 2 * Carry.excess u 120 a)
    (hc : -(u + 120) < 120 * c ∧ 120 * c ≤ 0) :
    ∃ m c', FreeRun .x u other (l ++ m) ∧ Level u (after .x u other (l ++ m)) 0 c' ∧
      (-(u + 120) < 120 * c' ∧ 120 * c' ≤ 0) ∧
      drift .x u other l + 120 * c + 1 ≤ drift .x u other (l ++ m) + 120 * c' := by
  -- Both steps to the right bring the sum to `a`.
  obtain ⟨hfree₁, hlevel₁, hdrift₁⟩ := h.go hfree hu hmax (y := a - c) (by omega)
    (abs_lt.mpr (by omega))
  have hsum₁ : c + (a - c - 0) = a := by ring
  rw [hsum₁, hone] at hlevel₁ hdrift₁
  obtain ⟨hfree₂, hlevel₂, hdrift₂⟩ := hlevel₁.go hfree₁ hu hmax (y := a - c + (a - 1)) (by omega)
    (abs_lt.mpr (by omega))
  have hsum₂ : 1 + (a - c + (a - 1) - (a - c)) = a := by ring
  rw [hsum₂, hone] at hlevel₂ hdrift₂
  obtain ⟨hfree₃, hlevel₃, hdrift₃⟩ := hlevel₂.go hfree₂ hu hmax (y := 0) (by omega)
    (abs_lt.mpr (by omega))
  have hback : 1 + (0 - (a - c + (a - 1))) ≤ 0 := by omega
  have hloss := (Carry.excess_of_nonpos (by omega : 0 < u) (by decide : (0 : ℤ) < 120) hback).1
  refine ⟨[at_ (a - c), at_ (a - c + (a - 1)), at_ 0], _, ?_, ?_,
    Carry.kept_of_nonpos (by omega) (by decide) hback, ?_⟩
  · simpa using hfree₃
  · simpa using hlevel₃
  · have hmoves : l ++ [at_ (a - c), at_ (a - c + (a - 1)), at_ 0] =
        l ++ [at_ (a - c)] ++ [at_ (a - c + (a - 1))] ++ [at_ 0] := by simp
    rw [hmoves]
    linarith

/-- The state behind the first report, which anchors the pan. -/
lemma level_first (u other : ℤ) : Level u (after .x u other [at_ 0]) 0 0 := by
  refine ⟨?_, rfl, rfl, by simp [after, step_first, fresh, new], rfl⟩
  exact congrArg some (midOf_at (by decide))

lemma exists_drift (hfits : ¬Fits u) (hu : 1 ≤ u) (hmax : u ≤ 2 ^ 29) (other : ℤ) (n : ℕ) :
    ∃ l c, FreeRun .x u other l ∧ Level u (after .x u other l) 0 c ∧
      (-(u + 120) < 120 * c ∧ 120 * c ≤ 0) ∧ n ≤ drift .x u other l + 120 * c := by
  obtain ⟨a, hpos, hlt, hone, htoo⟩ := Carry.exists_kept_one (by omega) (by decide) hfits
  induction n with
  | zero =>
    refine ⟨[at_ 0], 0, ?_, level_first u other, by omega, ?_⟩
    · refine Trace.each_snoc (l := []).mpr ⟨Trace.each_nil, ?_, ?_⟩
      · exact (level_first u other).lock
      · have hnone : (after .x u other []).acc .x +
            PanAxis.x.of ((after .x u other []).moved (at_ 0).a (at_ 0).b) = 0 := by
          simp [after, moved, fresh, new, PanAxis.of, acc]
        rw [hnone, due_zero]
        decide
    · simp [drift, outputs, Trace.outputs, step, feed, moved, fresh, new, PanAxis.of]
  | succ n ih =>
    obtain ⟨l, c, hfree, hlevel, hc, hn⟩ := ih
    obtain ⟨m, c', hfree', hlevel', hc', hmore⟩ :=
      hlevel.roundTrip hfree hu hmax ⟨hpos, hlt⟩ hone htoo hc
    exact ⟨l ++ m, c', hfree', hlevel', hc', by push_cast; omega⟩

lemma not_driftless (hfits : ¬Fits u) (hu : 1 ≤ u) (hmax : u ≤ 2 ^ 29) : ¬Driftless .x u := by
  intro h
  obtain ⟨bound, hbound⟩ := h.bounded
  obtain ⟨l, c, hfree, -, hc, hn⟩ := exists_drift hfits hu hmax 64 bound.toNat
  have hdrift := abs_lt.mp (hbound 64 l hfree)
  omega

end PtpPan

/-! ### The pinch while it is engaged -/

namespace PtpPinch

variable {R : Type} {rates : Rates R} {s : PtpPinch R} {r : PinchReport}

/-- What the state keeps, engaged or not. -/
structure Known (u : ℤ) (s : PtpPinch R) : Prop where
  same : s.unitsPerDetent = u
  anchored : s.anchor = none → s.engaged = false
  prev : ∀ p, s.prev = some p → 0 ≤ p ∧ p < 2 ^ 33
  idle : s.engaged = false → s.acc = 0

lemma spreadStep_bounds (h : Known u s) (a b : Contact) : |s.spreadStep a b| < 2 ^ 34 := by
  have hafter := PinchTap.spreadOf_bounds a b
  rw [spreadStep]
  rcases hprev : s.prev with _ | p
  · rw [Option.getD_none, sub_self]
    decide
  · have hbefore := h.prev p hprev
    rw [Option.getD_some]
    exact abs_lt.mpr ⟨by omega, by omega⟩

/-- An engaged gesture goes on with what it knows, or ends. -/
lemma known_zooms (h : Known u s) (hengaged : s.engaged = true) (step : ℤ)
    (scrolls : Prop) [Decidable scrolls] : Known u (s.zooms step scrolls).1 := by
  by_cases hscrolls : scrolls
  · simp only [zooms, if_pos hscrolls]
    split_ifs
    · exact ⟨h.same, fun _ => rfl, h.prev, fun _ => rfl⟩
    · exact ⟨h.same, h.anchored, h.prev, h.idle⟩
  · simp only [zooms, if_neg hscrolls]
    refine ⟨h.same, h.anchored, h.prev, fun hidle => ?_⟩
    rw [hengaged] at hidle
    cases hidle

lemma known_step (h : Known u s) (r : PinchReport) : Known u (step rates s r).1 := by
  have hspread : ∀ p, some (spreadOf r.a r.b) = some p → 0 ≤ p ∧ p < 2 ^ 33 := by
    intro p hp
    rw [← Option.some.inj hp]
    exact PinchTap.spreadOf_bounds r.a r.b
  simp only [step, feed]
  rcases hanchor : s.anchor with _ | anchor
  · exact ⟨h.same, fun hnone => (Option.some_ne_none _ hnone).elim, hspread, h.idle⟩
  · dsimp only
    split_ifs
    · exact ⟨h.same, fun hnone => (Option.some_ne_none _ hnone).elim, hspread, h.idle⟩
    · exact ⟨h.same, fun hnone => (Option.some_ne_none _ hnone).elim, hspread, h.idle⟩
    · refine known_zooms ?_ rfl _ _
      refine ⟨h.same, fun hnone => (Option.some_ne_none _ hnone).elim, hspread, fun hidle => ?_⟩
      cases hidle

lemma known_after (rates : Rates R) (u : ℤ) (l : List PinchReport) :
    Known u (after rates u l) := by
  refine Trace.always (I := fun _ s => Known u s) ?_ fun m r h => known_step h r
  exact ⟨rfl, fun _ => rfl, fun p hp => (Option.some_ne_none p hp.symm).elim, fun _ => rfl⟩

/-- A report that leaves the gesture engaged has it go on from what it had. -/
lemma feed_engaged (h : Known u s) (hafter : (step rates s r).1.engaged = true) :
    ∃ t : PtpPinch R, t.acc = s.acc ∧ t.unitsPerDetent = u ∧
      s.feed rates r.panOwned [r.a, r.b] =
        t.zooms (s.spreadStep r.a r.b) (s.Scrolls rates r.a r.b) := by
  simp only [step, feed] at hafter ⊢
  rcases hanchor : s.anchor with _ | anchor
  · rw [hanchor] at hafter
    exact absurd hafter (by simp [h.anchored hanchor])
  · rw [hanchor] at hafter
    dsimp only at hafter ⊢
    split_ifs at hafter ⊢ with hslides hgate
    · exact absurd hafter (by simp [hslides.1])
    · exact absurd hafter (by simp [hgate.1])
    · refine ⟨_, ?_, ?_, rfl⟩
      · rfl
      · exact h.same

/-- A report that leaves the gesture engaged either scrolls, or banks its step. -/
lemma step_engaged (h : Known u s) (hafter : (step rates s r).1.engaged = true) :
    (s.Scrolls rates r.a r.b ∧ (step rates s r).2 = (0, 0) ∧ (step rates s r).1.acc = s.acc) ∨
      (¬s.Scrolls rates r.a r.b ∧ (step rates s r).2.2 = s.spreadStep r.a r.b ∧
        (step rates s r).2.1 = (emit (max u 1) (s.acc + s.spreadStep r.a r.b)).1 ∧
        (step rates s r).1.acc = (emit (max u 1) (s.acc + s.spreadStep r.a r.b)).2) := by
  obtain ⟨t, hacc, hunits, hfeed⟩ := feed_engaged h hafter
  by_cases hscrolls : s.Scrolls rates r.a r.b
  · left
    simp only [step, hfeed, zooms, if_pos hscrolls] at hafter ⊢
    by_cases hover : takeoverFrames ≤ t.scrollStreak + 1
    · simp [hover] at hafter
    · simp [hover, hscrolls, hacc]
  · right
    simp only [step, hfeed, zooms, if_neg hscrolls, hacc, hunits] at hafter ⊢
    simp [hscrolls, hafter]

/-- A report behind which no gesture is engaged zooms nothing. -/
lemma step_idle (hafter : (step rates s r).1.engaged = false) : (step rates s r).2.1 = 0 := by
  simp only [step, feed, zooms] at hafter ⊢
  rcases hanchor : s.anchor with _ | anchor
  · rfl
  · rw [hanchor] at hafter
    dsimp only at hafter ⊢
    split_ifs at hafter ⊢
    · rfl
    · rfl
    · rfl

variable {u : ℤ} {m e : List PinchReport}

lemma drift_snoc (rates : Rates R) (u : ℤ) (m e : List PinchReport) (r : PinchReport) :
    drift rates u m (e ++ [r]) = drift rates u m e +
      (u * (step rates (after rates u (m ++ e)) r).2.1 -
        120 * (step rates (after rates u (m ++ e)) r).2.2) := by
  have hstate : Trace.final (step rates) (after rates u m) e = after rates u (m ++ e) :=
    (Trace.final_append _ _ _ _).symm
  simp only [drift, outputs, Trace.outputs_snoc, List.map_append, List.map_singleton,
    List.sum_append, List.sum_singleton, hstate]
  ring

lemma Episode.earlier (h : Episode rates u m (e ++ [r])) : Episode rates u m e :=
  ⟨h.before, fun k hk => h.during k (hk.trans (List.prefix_append _ _))⟩

/-- With units that fit, an episode keeps less than a 120th and loses nothing. -/
lemma kept_episode (hfits : Fits u) (hu : 1 ≤ u) (hmax : u ≤ i64Max)
    (h : Episode rates u m e) (hwhole : WholeRun rates u m e) :
    |120 * (after rates u (m ++ e)).acc| < u ∧
      drift rates u m e = -(120 * (after rates u (m ++ e)).acc) := by
  induction e using List.reverseRecOn with
  | nil =>
    rw [List.append_nil, (known_after rates u m).idle h.before]
    exact ⟨hu, by simp [drift, outputs]⟩
  | append_singleton e r ih =>
    obtain ⟨hbefore, hr⟩ := Trace.each_snoc.mp hwhole
    obtain ⟨hsmall, hsum⟩ := ih h.earlier hbefore
    have hknown := known_after rates u (m ++ e)
    have hafter := h.during _ List.prefix_rfl (by simp)
    rw [← List.append_assoc, after, Trace.final_snoc] at hafter ⊢
    rw [drift_snoc, hsum]
    rcases step_engaged hknown hafter with ⟨-, hout, hacc⟩ | ⟨hcounts, hstep, hout, hacc⟩
    · rw [hacc, hout]
      exact ⟨hsmall, by ring⟩
    · have hfit := hr.resolve_left hcounts
      rw [hknown.same, max_eq_left hu] at hfit
      rw [max_eq_left hu] at hout hacc
      obtain ⟨hbalance, hless⟩ :=
        hfits.emit hu hmax hsmall (spreadStep_bounds hknown r.a r.b) hfit
      rw [hacc, hout, hstep]
      exact ⟨hless, by linarith⟩

/-- A pinch whose units fit stays within one 120th. -/
lemma driftless_of_fits (hfits : Fits u) (hu : 1 ≤ u) (hmax : u ≤ i64Max) : Driftless u where
  bounded := by
    refine ⟨u, fun R rates m e h hwhole => ?_⟩
    obtain ⟨hsmall, hsum⟩ := kept_episode hfits hu hmax h hwhole
    rwa [hsum, abs_neg]
  rests R rates m e r h hwhole hstill := by
    obtain ⟨hsmall, -⟩ := kept_episode hfits hu hmax h hwhole
    rcases hafter : (step rates (after rates u (m ++ e)) r).1.engaged with _ | _
    · exact step_idle hafter
    · rcases step_engaged (known_after rates u (m ++ e)) hafter with ⟨-, hout, -⟩ | ⟨-, -, hout, -⟩
      · rw [hout]
      · rw [hout, hstill, add_zero, max_eq_left hu]
        exact emit_of_lt hu hmax hsmall

end PtpPinch

/-- **Touchpads that do not drift.** A touchpad neither scrolls nor zooms what the fingers did not
do if its units divide 120 or are a multiple of it, and of all units that a sensor can have it
drifts with every other one. -/
theorem driftless_iff {units : ℤ} (hunits : 1 ≤ units) (hmax : units < 2 ^ 63) :
    (Fits units → Driftless units) ∧ (units ≤ 2 ^ 29 → (Driftless units ↔ Fits units)) := by
  have hrange : units ≤ i64Max := by rw [i64Max]; omega
  have hfits : Fits units → Driftless units := fun h =>
    ⟨PtpPan.driftless_of_fits h hunits hrange, PtpPinch.driftless_of_fits h hunits hrange⟩
  refine ⟨hfits, fun hsensor => ⟨fun h => ?_, hfits⟩⟩
  by_contra hnot
  exact PtpPan.not_driftless hnot hunits hsensor (h.pan .x)

/-- A scale of 60 units fits, and the default one does not. -/
theorem driftless_sixty : Driftless 60 ∧ ¬Driftless 64 := by
  have hdecide : Fits 60 ∧ ¬Fits 64 := by
    unfold Fits
    decide
  exact ⟨(driftless_iff (by decide) (by decide)).1 hdecide.1,
    fun h => hdecide.2 (((driftless_iff (by decide) (by decide)).2 (by decide)).mp h)⟩

/-- With the default units, fingers that moved by one unit of the sensor scroll on as they rest. -/
theorem resting_scrolls : ¬∀ units : ℤ, 1 ≤ units → units < 2 ^ 63 → Driftless units := by
  intro h
  have hfree : PtpPan.FreeRun .x 64 64 [PtpPan.at_ 0, PtpPan.at_ 1] :=
    Trace.each_iff_getElem.mpr (by decide)
  have hrests := ((h 64 (by decide) (by decide)).pan .x).rests 64 _ (PtpPan.at_ 1) hfree (by decide)
  exact absurd hrests (by decide)

end TheKvm.Ptp

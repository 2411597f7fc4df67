import Mathlib.Algebra.BigOperators.Group.List.Basic
import TheKvm.Core.Mapping
import TheKvm.Daemon.Scroll
import TheKvm.Lib.Bank
import TheKvm.Platform.Evdev

/-!
Smooth scroll for a peer that only knows whole detents.

The 120ths of a detent wait as debt until a detent is whole. Each axis is a bank that pays whole
detents; its sum saturates at 32 bits and a payment at 16. Scroll is conserved, and mirrored under
reverse scroll, as long as no axis comes near the 32768 detents of one payment.
-/

namespace TheKvm

open Evdev (toInt_saturatingAdd)

/-- The 120ths that are not sent yet. -/
structure WheelDowngrade where
  x : Int32
  y : Int32

/-- `Default`: no debt. -/
def WheelDowngrade.none : WheelDowngrade := ⟨0, 0⟩

/-- `clamp` to the range of `i16`. -/
def clampI16 (n : Int32) : Int16 := Int16.ofInt (min (max n.toInt (-2 ^ 15)) (2 ^ 15 - 1))

/-- The whole detents of one axis, and its debt after them. -/
def detentsOf (debt delta : Int32) : Int16 × Int32 :=
  let debt := Evdev.saturatingAdd debt delta
  let detents := clampI16 (debt / 120)
  (detents, debt - detents.toInt32 * 120)

def outgoingWheelEvent (event : InputEvent) (peerSmooth : Bool) (debt : WheelDowngrade) :
    WheelDowngrade × Option InputEvent :=
  if peerSmooth then (debt, some event)
  else
    match event with
    | .smoothWheel x y =>
      let (detentsX, debtX) := detentsOf debt.x x
      let (detentsY, debtY) := detentsOf debt.y y
      (⟨debtX, debtY⟩,
        if detentsX ≠ 0 ∨ detentsY ≠ 0 then some (.wheel ⟨detentsX, detentsY⟩) else .none)
    | event => (debt, some event)

namespace WheelDowngrade

/-! ### A run of smooth scroll -/

def along (axis : Axis) (debt : WheelDowngrade) : Int32 := axis.of (debt.x, debt.y)

/-- A smooth wheel event for a peer without smooth scroll, with the sender's reverse setting. -/
def feed (reverse : Bool) (debt : WheelDowngrade) (delta : Int32 × Int32) :
    WheelDowngrade × Option InputEvent :=
  outgoingWheelEvent (applyReverseScroll (.smoothWheel delta.1 delta.2) reverse) false debt

def after (reverse : Bool) (deltas : List (Int32 × Int32)) : WheelDowngrade :=
  Trace.final (feed reverse) none deltas

/-- The detents of what is sent. -/
def detents (axis : Axis) : Option InputEvent → ℤ
  | some (.wheel delta) => (axis.of (delta.x, delta.y)).toInt
  | _ => 0

/-- The detents sent for each event. -/
def sent (axis : Axis) (reverse : Bool) (deltas : List (Int32 × Int32)) : List ℤ :=
  (Trace.outputs (feed reverse) none deltas).map (detents axis)

def debt (axis : Axis) (reverse : Bool) (deltas : List (Int32 × Int32)) : ℤ :=
  ((after reverse deltas).along axis).toInt

def total (axis : Axis) (deltas : List (Int32 × Int32)) : ℤ :=
  (deltas.map fun delta => (axis.of delta).toInt).sum

/-- The whole detents of a sum do not fit 16 bits. -/
def Clamped (debt delta : Int32) : Prop :=
  (clampI16 (Evdev.saturatingAdd debt delta / 120)).toInt ≠
    (Evdev.saturatingAdd debt delta / 120).toInt

/-- What is sent and what is left is what was scrolled. -/
def Conserved (axis : Axis) (deltas : List (Int32 × Int32)) : Prop :=
  120 * (sent axis false deltas).sum + debt axis false deltas = total axis deltas

/-- A payment that was not clamped left less than a detent. -/
def Small (axis : Axis) (deltas : List (Int32 × Int32)) : Prop :=
  ∀ earlier delta, deltas = earlier ++ [delta] →
    ¬Clamped ((after false earlier).along axis) (axis.of delta) → |debt axis false deltas| < 120

/-- The reversed events are sent and left as the reversed detents. -/
def Mirrored (axis : Axis) (deltas : List (Int32 × Int32)) : Prop :=
  sent axis true deltas = (sent axis false deltas).map (-·) ∧
    debt axis true deltas = -debt axis false deltas

/-- The sum of debt and delta fits 32 bits. -/
def Unsaturated (axis : Axis) (earlier : List (Int32 × Int32)) (delta : Int32 × Int32) : Prop :=
  -2 ^ 31 ≤ debt axis false earlier + (axis.of delta).toInt ∧
    debt axis false earlier + (axis.of delta).toInt < 2 ^ 31

/-- Debt and delta make fewer than the 32768 detents of the limit. -/
def Fits (axis : Axis) (earlier : List (Int32 × Int32)) (delta : Int32 × Int32) : Prop :=
  |debt axis false earlier + (axis.of delta).toInt| < 120 * 32768

/-! ### One axis -/

/-- The payment of one axis with its limits. -/
abbrev put (left x : ℤ) : ℤ × ℤ := Bank.put 120 (2 ^ 15 - 1) (2 ^ 31 - 1) left x

lemma toInt_clampI16 (n : Int32) : (clampI16 n).toInt = Bank.saturate (2 ^ 15 - 1) n.toInt := by
  rw [clampI16, Int16.toInt_ofInt_of_le (by omega) (by omega)]
  rfl

lemma toInt_div_120 (n : Int32) : (n / 120).toInt = n.toInt.tdiv 120 := by
  have hle := n.le_toInt
  have hlt := n.toInt_lt
  have h : |n.toInt.tdiv 120| ≤ 17895698 := by
    rw [Bank.abs_tdiv_le_iff (by decide), abs_lt]
    omega
  rw [abs_le] at h
  rw [Int32.toInt_div, show (120 : Int32).toInt = 120 from rfl, Int.bmod_eq_of_le] <;> omega

/-- An axis is a bank. -/
lemma detentsOf_eq (debt delta : Int32) :
    ((detentsOf debt delta).1.toInt, (detentsOf debt delta).2.toInt) =
      put debt.toInt delta.toInt := by
  set sum := Evdev.saturatingAdd debt delta with hsum
  have hsumInt : sum.toInt = Bank.saturate (2 ^ 31 - 1) (debt.toInt + delta.toInt) :=
    toInt_saturatingAdd _ _
  have hpaid : (clampI16 (sum / 120)).toInt = Bank.paid 120 (2 ^ 15 - 1) sum.toInt := by
    rw [toInt_clampI16, toInt_div_120, Bank.paid]
  have hmul : ((clampI16 (sum / 120)).toInt32 * 120).toInt =
      (clampI16 (sum / 120)).toInt * 120 := by
    have hle := (clampI16 (sum / 120)).le_toInt
    have hlt := (clampI16 (sum / 120)).toInt_lt
    rw [Int32.toInt_mul, Int16.toInt_toInt32, show (120 : Int32).toInt = 120 from rfl,
      Int.bmod_eq_of_le] <;> omega
  have hleft : (sum - (clampI16 (sum / 120)).toInt32 * 120).toInt =
      sum.toInt - 120 * Bank.paid 120 (2 ^ 15 - 1) sum.toInt := by
    have hle := sum.le_toInt
    have hlt := sum.toInt_lt
    have hpos := Bank.paid_of_nonneg (u := 120) (M := 2 ^ 15 - 1) (v := sum.toInt)
      (by decide) (by decide)
    have hneg := Bank.paid_of_nonpos (u := 120) (M := 2 ^ 15 - 1) (v := sum.toInt)
      (by decide) (by decide)
    rw [Int32.toInt_sub, hmul, hpaid, mul_comm _ (120 : ℤ), Int.bmod_eq_of_le] <;> omega
  simp only [detentsOf, ← hsum]
  rw [hpaid, hleft, hsumInt]
  rfl

/-- An axis of a delta with the sender's reverse setting. -/
def signed (reverse : Bool) (x : ℤ) : ℤ :=
  if reverse then Bank.saturate (2 ^ 31 - 1) (-x) else x

lemma toInt_saturatingNeg32 (x : Int32) :
    (saturatingNeg32 x).toInt = Bank.saturate (2 ^ 31 - 1) (-x.toInt) := by
  rw [saturatingNeg32, Bank.saturate]
  split_ifs with h
  · rw [h]
    decide
  · have hle := x.le_toInt
    have hlt := x.toInt_lt
    have hne : x.toInt ≠ -2 ^ 31 := fun hc => h (Int32.toInt_inj.mp (hc.trans (by decide)))
    rw [Int32.toInt_neg, Int.bmod_eq_of_le] <;> omega

/-! ### One event -/

section

variable {axis : Axis} {earlier : List (Int32 × Int32)} {delta : Int32 × Int32}

/-- What one event pays on an axis, and what it leaves. -/
lemma feed_eq (axis : Axis) (reverse : Bool) (debt : WheelDowngrade) (delta : Int32 × Int32) :
    (detents axis (feed reverse debt delta).2, ((feed reverse debt delta).1.along axis).toInt) =
      put (debt.along axis).toInt (signed reverse (axis.of delta).toInt) := by
  have hsent : ∀ x y : Int32,
      detents axis (outgoingWheelEvent (.smoothWheel x y) false debt).2 =
        (axis.of ((detentsOf debt.x x).1, (detentsOf debt.y y).1)).toInt := fun x y => by
    simp only [outgoingWheelEvent, Bool.false_eq_true, if_false]
    split_ifs with h
    · rfl
    · obtain ⟨hx, hy⟩ := not_or.mp h
      rw [not_not] at hx hy
      rw [hx, hy]
      cases axis <;> rfl
  have key : ∀ x y : Int32,
      (detents axis (outgoingWheelEvent (.smoothWheel x y) false debt).2,
        ((outgoingWheelEvent (.smoothWheel x y) false debt).1.along axis).toInt) =
      put (debt.along axis).toInt (axis.of (x, y)).toInt := fun x y => by
    rw [hsent, ← detentsOf_eq]
    cases axis <;> rfl
  cases reverse with
  | false => exact key delta.1 delta.2
  | true =>
    rw [signed, if_pos rfl, ← toInt_saturatingNeg32]
    cases axis <;> exact key _ _

lemma debt_snoc (axis : Axis) (reverse : Bool) (earlier : List (Int32 × Int32))
    (delta : Int32 × Int32) :
    debt axis reverse (earlier ++ [delta]) =
      (put (debt axis reverse earlier) (signed reverse (axis.of delta).toInt)).2 := by
  rw [debt, after, Trace.final_snoc]
  exact congrArg Prod.snd (feed_eq axis reverse (after reverse earlier) delta)

lemma sent_snoc (axis : Axis) (reverse : Bool) (earlier : List (Int32 × Int32))
    (delta : Int32 × Int32) :
    sent axis reverse (earlier ++ [delta]) = sent axis reverse earlier ++
      [(put (debt axis reverse earlier) (signed reverse (axis.of delta).toInt)).1] := by
  rw [sent, Trace.outputs_snoc, List.map_append, List.map_singleton]
  exact congrArg (_ ++ [·])
    (congrArg Prod.fst (feed_eq axis reverse (after reverse earlier) delta))

lemma total_snoc (axis : Axis) (earlier : List (Int32 × Int32)) (delta : Int32 × Int32) :
    total axis (earlier ++ [delta]) = total axis earlier + (axis.of delta).toInt := by
  rw [total, List.map_append, List.sum_append, List.map_singleton, List.sum_singleton]
  rfl

/-- An event keeps scroll conserved exactly if its sum does not saturate. -/
lemma conserved_snoc (h : Conserved axis earlier) :
    Conserved axis (earlier ++ [delta]) ↔ Unsaturated axis earlier delta := by
  have hsum : 120 * (put (debt axis false earlier) (axis.of delta).toInt).1 +
      (put (debt axis false earlier) (axis.of delta).toInt).2 =
      Bank.saturate (2 ^ 31 - 1) (debt axis false earlier + (axis.of delta).toInt) := Bank.put_sum
  rw [Conserved] at h
  rw [Conserved, Unsaturated, sent_snoc, debt_snoc, total_snoc, List.sum_append,
    List.sum_singleton, signed, if_neg Bool.false_ne_true]
  rw [Bank.saturate] at hsum
  omega

/-- A payment that is not clamped leaves less than a detent, whatever was before. -/
lemma small (axis : Axis) (deltas : List (Int32 × Int32)) : Small axis deltas := by
  rintro earlier delta rfl hclamp
  rw [Clamped, not_not, toInt_clampI16, toInt_div_120, toInt_saturatingAdd] at hclamp
  rw [debt_snoc]
  exact Bank.put_left (by decide) hclamp

lemma small_debt (h : Trace.Each (Fits axis) earlier) : |debt axis false earlier| < 120 := by
  rcases List.eq_nil_or_concat' earlier with rfl | ⟨before, last, rfl⟩
  · cases axis <;> decide
  · have hfits : |debt axis false before + (axis.of last).toInt| < 120 * 32768 :=
      (Trace.each_snoc.mp h).2
    rw [debt_snoc, signed, if_neg Bool.false_ne_true, put,
      Bank.put_of_fits (by decide) (by decide) hfits]
    exact Bank.abs_tmod_lt (by decide) _

/-- An event keeps scroll mirrored exactly if it fits. -/
lemma mirrored_snoc (h : Mirrored axis earlier) (hsmall : |debt axis false earlier| < 120) :
    Mirrored axis (earlier ++ [delta]) ↔ Fits axis earlier delta := by
  have hmirror : put (-debt axis false earlier) (signed true (axis.of delta).toInt) =
      -put (debt axis false earlier) (axis.of delta).toInt ↔ Fits axis earlier delta :=
    Bank.put_neg_iff (by decide) (by decide) (by decide) hsmall
      ⟨by have := (axis.of delta).le_toInt; omega, by have := (axis.of delta).toInt_lt; omega⟩
  rw [← hmirror, Mirrored, sent_snoc, sent_snoc, debt_snoc, debt_snoc, h.1, h.2, List.map_append,
    List.append_cancel_left_eq, List.map_singleton, List.singleton_inj, Prod.ext_iff]
  rfl

end

/-! ### A whole run -/

/-- **The limits of the downgrade.** On each axis a run of smooth scroll is conserved at every
point exactly as long as no sum of debt and delta saturates; a payment that is not clamped always
leaves less than a detent; and reverse scroll mirrors the run at every point exactly as long as no
event brings the axis to the 32768 detents of the limit. -/
theorem downgrade_limits (axis : Axis) (deltas : List (Int32 × Int32)) :
    ((∀ earlier, earlier <+: deltas → Conserved axis earlier) ↔
      Trace.Each (Unsaturated axis) deltas) ∧
    (∀ earlier, earlier <+: deltas → Small axis earlier) ∧
    ((∀ earlier, earlier <+: deltas → Mirrored axis earlier) ↔
      Trace.Each (Fits axis) deltas) := by
  refine ⟨?_, fun earlier _ => small axis earlier, ?_⟩
  · have hnil : Conserved axis [] := by cases axis <;> rfl
    exact (Trace.each_iff hnil fun earlier delta _ _ hconserved =>
      conserved_snoc (hconserved earlier (List.prefix_refl _))).symm
  · have hnil : Mirrored axis [] := by cases axis <;> exact ⟨rfl, by decide⟩
    exact (Trace.each_iff hnil fun earlier delta _ hfits hmirrored =>
      mirrored_snoc (hmirrored earlier (List.prefix_refl _)) (small_debt hfits)).symm

/-- The most that one axis of an event can be, twice: the second sum saturates. -/
def strongest : List (Int32 × Int32) := [(2147483647, 0), (2147483647, 0)]

/-- A scroll that 32768 detents pay in one direction and 32767 in the other. -/
def longest : List (Int32 × Int32) := [(-3932160, 0)]

/-- At the limits scroll is lost, and what is scrolled the other way is not sent. -/
theorem limits_not_faithful : ¬Conserved .horizontal strongest ∧
    sent .horizontal false longest = [-32768] ∧ sent .horizontal true longest = [32767] ∧
    ¬Mirrored .horizontal longest := by
  have hsent : sent .horizontal false longest = [-32768] := by decide
  have hreverse : sent .horizontal true longest = [32767] := by decide
  have hlost : 120 * (sent .horizontal false strongest).sum + debt .horizontal false strongest ≠
      total .horizontal strongest := by decide
  refine ⟨hlost, hsent, hreverse, fun h => ?_⟩
  have := h.1
  rw [hsent, hreverse] at this
  exact absurd this (by decide)

end WheelDowngrade

end TheKvm

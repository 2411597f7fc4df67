import TheKvm.Core.Return
import TheKvm.Lib.Carry
import TheKvm.Lib.Pin
import TheKvm.Platform.PinchTap

/-!
The precision touchpad of the Windows capture: two fingers that pan scroll, and two that spread
zoom.

What the fingers move is emitted in 120ths of a detent, and the rest is kept for the next report. It
is kept rounded, so on most sensors more is emitted than the fingers moved.
-/

namespace TheKvm.Ptp

open PinchTap (Contact midOf spreadOf)

/-! ### The scale of a sensor -/

def ptpGenericPage : UInt16 := 0x01
def ptpUsageX : UInt16 := 0x30
def ptpUsageY : UInt16 := 0x31
def ptpDetentsPerSpan : ℤ := 16

/-- What `ptp_axis_scale` reads of a `HIDP_VALUE_CAPS`. -/
structure ValueCaps where
  usagePage : UInt16
  linkCollection : UInt16
  /-- `Range` or `NotRange`. -/
  usages : (UInt16 × UInt16) ⊕ UInt16
  logicalMax : Int32

def ValueCaps.covers (caps : ValueCaps) (usage : UInt16) : Bool :=
  match caps.usages with
  | .inl (least, greatest) => least ≤ usage && usage ≤ greatest
  | .inr only => only = usage

def ptpScale (first usage : UInt16) (valueCaps : List ValueCaps) : ℤ :=
  match valueCaps.find? fun caps =>
    caps.usagePage = ptpGenericPage && caps.linkCollection = first && caps.covers usage &&
      0 < caps.logicalMax with
  | some caps => max (caps.logicalMax.toInt.tdiv ptpDetentsPerSpan) 1
  | none => 64

def ptpAxisScale (fingers : List UInt16) (valueCaps : List ValueCaps) : ℤ × ℤ :=
  let first := fingers.headD 0
  (ptpScale first ptpUsageX valueCaps, ptpScale first ptpUsageY valueCaps)

/-- Every sensor has a scale of at least one unit, and of no more than a sixteenth of 32 bits. -/
lemma ptpScale_bounds (first usage : UInt16) (valueCaps : List ValueCaps) :
    1 ≤ ptpScale first usage valueCaps ∧ ptpScale first usage valueCaps ≤ 2 ^ 27 := by
  unfold ptpScale
  split
  · next caps _ =>
    have hmax := Int32.toInt_bounds caps.logicalMax
    refine ⟨le_max_right _ _, max_le ?_ (by decide)⟩
    rw [ptpDetentsPerSpan]
    rcases le_total 0 caps.logicalMax.toInt with hpos | hneg
    · rw [Int.tdiv_eq_ediv_of_nonneg hpos]
      omega
    · have hquotient := Int.tdiv_nonneg (neg_nonneg.mpr hneg) (by decide : (0 : ℤ) ≤ 16)
      rw [Int.neg_tdiv] at hquotient
      omega
  · decide

/-! ### What an axis emits -/

def i64Max : ℤ := 2 ^ 63 - 1

/-- The 120ths that are due, before the limit. -/
def due (units acc : ℤ) : ℤ := (Bank.saturate i64Max (acc * 120)).tdiv units

/-- The 120ths that are emitted, and what is kept. -/
def emit (units acc : ℤ) : ℤ × ℤ :=
  let out := pin (-120000) 120000 (due units acc)
  (out, acc - (Bank.saturate i64Max (out * units)).tdiv 120)

/-! ### The pan -/

inductive PanAxis
  | x | y
  deriving DecidableEq

def PanAxis.other : PanAxis → PanAxis
  | .x => .y
  | .y => .x

/-- The component of a pair that belongs to the axis. -/
def PanAxis.of {α : Type*} : PanAxis → α × α → α
  | .x, p => p.1
  | .y, p => p.2

structure PtpPan where
  prev : Option (ℤ × ℤ)
  accX : ℤ
  accY : ℤ
  unitsPerDetentX : ℤ
  unitsPerDetentY : ℤ
  lock : Option PanAxis
  gestX : ℤ
  gestY : ℤ
  lastFeed : Option Instant
  deriving DecidableEq

namespace PtpPan

def new (unitsX unitsY : ℤ) : PtpPan := ⟨none, 0, 0, unitsX, unitsY, none, 0, 0, none⟩

def lockMinXUnits : ℤ := 60
def lockMinYUnits : ℤ := 120
def lockRatio : ℤ := 2

/-- The axis that owns the gesture from here on. -/
def verdict (s : PtpPan) : Option PanAxis :=
  match s.lock with
  | some axis => some axis
  | none =>
    if lockMinXUnits ≤ s.gestX ∧ Bank.saturate i64Max (s.gestY * lockRatio) ≤ s.gestX then some .x
    else if lockMinYUnits ≤ s.gestY ∧ Bank.saturate i64Max (s.gestX * lockRatio) ≤ s.gestY then
      some .y
    else none

/-- The last report is so long ago that the gesture has to prove its axis again. -/
def Idle (s : PtpPan) (now : Instant) : Prop :=
  s.lastFeed.any (fun last => 300 < elapsed now last / Duration.fromMillis 1) = true

instance (s : PtpPan) (now : Instant) : Decidable (s.Idle now) :=
  inferInstanceAs (Decidable (_ = _))

/-- The motion is banked, and the verdict passed. -/
def move (s : PtpPan) (now : Instant) (d : ℤ × ℤ) : PtpPan :=
  let s := if s.Idle now then { s with lock := none, gestX := 0, gestY := 0 } else s
  let s := { s with
    lastFeed := some now, accX := s.accX + d.1, accY := s.accY + d.2
    gestX := Bank.saturate i64Max (s.gestX + |d.1|)
    gestY := Bank.saturate i64Max (s.gestY + |d.2|) }
  { s with lock := s.verdict }

/-- An axis that is locked out emits nothing and keeps nothing. -/
def emits (s : PtpPan) : PtpPan × ℤ × ℤ :=
  let (outX, accX) := emit (max s.unitsPerDetentX 1) s.accX
  let (outY, accY) := emit (max s.unitsPerDetentY 1) s.accY
  match s.lock with
  | some .x => ({ s with accX, accY := 0 }, outX, 0)
  | some .y => ({ s with accX := 0, accY }, 0, outY)
  | none => ({ s with accX, accY }, outX, outY)

/-- How far the fingers went since the last report: right, and up. -/
def moved (s : PtpPan) (a b : Contact) : ℤ × ℤ :=
  let avg := midOf a b
  let prev := s.prev.getD avg
  (avg.1 - prev.1, prev.2 - avg.2)

/-- `PtpPan::feed`: the scroll in 120ths. -/
def feed (s : PtpPan) (now : Instant) : List Contact → PtpPan × ℤ × ℤ
  | [a, b] =>
    match s.prev with
    | none => ({ s with prev := some (midOf a b) }, 0, 0)
    | some _ => (({ s with prev := some (midOf a b) } : PtpPan).move now (s.moved a b)).emits
  | _ =>
    ({ s with
      prev := none, accX := 0, accY := 0, lock := none, gestX := 0, gestY := 0
      lastFeed := none }, 0, 0)

end PtpPan

/-! ### The pinch -/

/-- The recent windows of the motion rates, which are floating-point numbers, and what is read
off them. -/
structure Rates (R : Type) where
  zero : R
  next : R → ℕ → ℕ → R
  spreadDominant : R → Bool
  scrollDominant : R → Bool

structure PtpPinch (R : Type) where
  anchor : Option ℤ
  prev : Option ℤ
  prevMid : Option (ℤ × ℤ)
  acc : ℤ
  unitsPerDetent : ℤ
  engaged : Bool
  scrollStreak : UInt32
  ema : R

namespace PtpPinch

variable {R : Type} (rates : Rates R)

def new (units : ℤ) : PtpPinch R := ⟨none, none, none, 0, units, false, 0, rates.zero⟩

def pinchEngageUnits : ℤ := 192
def takeoverFrames : UInt32 := 5

/-- How far the fingers went apart since the last report. -/
def spreadStep (s : PtpPinch R) (a b : Contact) : ℤ := spreadOf a b - s.prev.getD (spreadOf a b)

/-- How far the middle went since the last report. -/
def midStep (s : PtpPinch R) (a b : Contact) : ℤ :=
  let prevMid := s.prevMid.getD (midOf a b)
  |(midOf a b).1 - prevMid.1| + |(midOf a b).2 - prevMid.2|

def nextEma (s : PtpPinch R) (a b : Contact) : R :=
  rates.next s.ema (s.spreadStep a b).natAbs (s.midStep a b).natAbs

/-- The fingers scroll rather than spread. -/
def Scrolls (s : PtpPinch R) (a b : Contact) : Prop :=
  rates.scrollDominant (s.nextEma rates a b) = true ∨
    8 ≤ s.midStep a b ∧ |s.spreadStep a b| * 2 ≤ s.midStep a b

instance (s : PtpPinch R) (a b : Contact) : Decidable (s.Scrolls rates a b) :=
  inferInstanceAs (Decidable (_ ∨ _))

/-- An engaged gesture goes on, or scrolling takes it over. -/
def zooms (s : PtpPinch R) (step : ℤ) (scrolls : Prop) [Decidable scrolls] :
    PtpPinch R × ℤ × Bool :=
  if scrolls then
    let streak := s.scrollStreak + 1
    if takeoverFrames ≤ streak then
      ({ s with engaged := false, scrollStreak := 0, acc := 0 }, 0, true)
    else ({ s with scrollStreak := streak }, 0, false)
  else
    let (out, acc) := emit (max s.unitsPerDetent 1) (s.acc + step)
    ({ s with scrollStreak := 0, acc }, out, false)

/-- `PtpPinch::feed`: the zoom in 120ths, and whether a gesture just ended. -/
def feed (s : PtpPinch R) (panOwned : Bool) : List Contact → PtpPinch R × ℤ × Bool
  | [a, b] =>
    let spread := spreadOf a b
    match s.anchor with
    | none =>
      ({ s with
        anchor := some spread, prev := some spread, prevMid := some (midOf a b)
        ema := rates.zero }, 0, false)
    | some anchor =>
      let ema := s.nextEma rates a b
      let s' := { s with prev := some spread, prevMid := some (midOf a b), ema }
      if s.engaged = false ∧ (panOwned = true ∨ rates.spreadDominant ema = false) then
        ({ s' with anchor := some spread }, 0, false)
      else if s.engaged = false ∧ |spread - anchor| < pinchEngageUnits then (s', 0, false)
      else { s' with engaged := true }.zooms (s.spreadStep a b) (s.Scrolls rates a b)
  | _ =>
    ({ s with
      anchor := none, prev := none, prevMid := none, acc := 0, engaged := false
      scrollStreak := 0, ema := rates.zero }, 0, s.engaged)

end PtpPinch

end TheKvm.Ptp

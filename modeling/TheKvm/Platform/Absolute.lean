import TheKvm.Core.Mapping
import TheKvm.Core.Return
import TheKvm.Lib.Pin

/-!
The absolute motion of the Windows injector.

The injector sums up the deltas in pixels of the announced target, and injects the fraction of
the target that the sum stands at. The sum itself is never brought back to the target.
-/

namespace TheKvm

/-- The announced target. The setter keeps no other. -/
structure AbsoluteTarget where
  dims : ℕ × ℕ
  sane : 2 ≤ dims.1 ∧ 2 ≤ dims.2

structure AbsoluteState where
  target : Option AbsoluteTarget
  /-- In pixels of the target. -/
  pos : ℤ × ℤ
  lastAbsolute : Bool

/-- The fields of the one `MOUSEINPUT` that a motion is injected as. -/
structure MouseInput where
  dx : ℤ
  dy : ℤ
  /-- `MOUSEEVENTF_ABSOLUTE` -/
  absolute : Bool
  deriving DecidableEq

/-- Units from 0 to 65535 along one axis. -/
def absoluteUnits (pos span : ℤ) : ℤ :=
  if span ≤ 0 then 0
  else min (max ((pin 0 span pos * 65535).tdiv span) (-2 ^ 31)) (2 ^ 31 - 1)

def mapSpan (value fromSpan toSpan : ℕ) : ℕ := mapCoordinate value fromSpan toSpan

namespace AbsoluteState

def default : AbsoluteState := ⟨none, (0, 0), false⟩

/-- `absolute_eligible`; `single` is what `single_monitor` answers. -/
def eligible (single : Bool) (target : AbsoluteTarget) : Bool :=
  single && 2 ≤ target.dims.1 && 2 ≤ target.dims.2

def setAbsoluteTarget (a : AbsoluteState) (width height : ℕ) : AbsoluteState :=
  { a with target := if h : 2 ≤ width ∧ 2 ≤ height then some ⟨(width, height), h⟩ else none }

/-- `note_warp`; `localDims` is what `display_logical_dims` answers. -/
def noteWarp (localDims : Option (ℕ × ℕ)) (a : AbsoluteState) (x y : ℕ) : AbsoluteState :=
  match a.target, localDims with
  | some target, some (localWidth, localHeight) =>
    { a with
      pos := (mapSpan x localWidth target.dims.1, mapSpan y localHeight target.dims.2) }
  | _, _ => { a with pos := (x, y) }

def motionInput (single : Bool) (a : AbsoluteState) (dx dy : Int32) :
    AbsoluteState × MouseInput :=
  match a.target with
  | some target =>
    if eligible single target then
      let pos := (wrapI64 (a.pos.1 + dx.toInt), wrapI64 (a.pos.2 + dy.toInt))
      let spanX : ℤ := target.dims.1 - 1
      let spanY : ℤ := target.dims.2 - 1
      ({ a with pos, lastAbsolute := true },
        ⟨absoluteUnits pos.1 spanX, absoluteUnits pos.2 spanY, true⟩)
    else ({ a with lastAbsolute := false }, ⟨dx.toInt, dy.toInt, false⟩)
  | none => ({ a with lastAbsolute := false }, ⟨dx.toInt, dy.toInt, false⟩)

/-- A warp on a screen of the target's size starts the sum at the point of the warp. -/
lemma noteWarp_pos {a : AbsoluteState} {target : AbsoluteTarget} {x y : ℕ}
    (ha : a.target = some target) (hx : x < target.dims.1) (hy : y < target.dims.2) :
    (noteWarp (some target.dims) a x y).pos = ((x : ℤ), (y : ℤ)) := by
  obtain ⟨hw, hh⟩ := target.sane
  have hself {v d : ℕ} (hd : 2 ≤ d) (hv : v < d) : mapSpan v d d = v := by
    rw [mapSpan, mapCoordinate_eq hd hd hv]
    exact proportion.self (by omega) v
  simp only [noteWarp, ha]
  change ((mapSpan x target.dims.1 target.dims.1 : ℤ),
    (mapSpan y target.dims.2 target.dims.2 : ℤ)) = _
  rw [hself hw hx, hself hh hy]

end AbsoluteState

/-! ### Units -/

section

variable {p q span : ℤ}

lemma absoluteUnits_eq (h : 0 < span) :
    absoluteUnits p span = proportion span.toNat 65535 (pin 0 span p).toNat := by
  have hge := pin.ge h.le p
  have hle := pin.le 0 span p
  have hunits : (pin 0 span p * 65535).tdiv span =
      (proportion span.toNat 65535 (pin 0 span p).toNat : ℕ) := by
    rw [proportion, Int.natCast_div, Int.natCast_mul, Int.toNat_of_nonneg hge,
      Int.toNat_of_nonneg h.le]
    exact Int.tdiv_eq_ediv_of_nonneg (by positivity)
  have hlast : proportion span.toNat 65535 (pin 0 span p).toNat ≤ 65535 :=
    proportion.le (by omega) (by omega)
  rw [absoluteUnits, if_neg (by omega), hunits]
  omega

/-- The units show the pinned sum. -/
lemma absoluteUnits_of_pin (h : 0 < span) (hq : q = pin 0 span p) :
    absoluteUnits p span = absoluteUnits q span := by
  rw [absoluteUnits_eq h, absoluteUnits_eq h, hq, pin.idem h.le]

/-- On a target of at most as many pixels as there are units, they tell the pixels apart. -/
lemma absoluteUnits_inj (h : 0 < span) (hspan : span ≤ 65535)
    (heq : absoluteUnits p span = absoluteUnits q span) : pin 0 span p = pin 0 span q := by
  rw [absoluteUnits_eq h, absoluteUnits_eq h, Int.natCast_inj] at heq
  have hinj := (proportion.strictMono (A := span.toNat) (B := 65535) (by omega)
    (by omega)).injective heq
  have hp := pin.ge h.le p
  have hq := pin.ge h.le q
  omega

end

end TheKvm

import TheKvm.Platform.Evdev

/-!
The scroll of a mouse, from its raw events to the wheel of each report.

A report carries what the finer unit summed up to on both axes, or, if that is nothing on either,
the detents of both. The finer unit is meant to take precedence on each axis by itself.
-/

namespace TheKvm.EvdevScroll

open Evdev

/-! ### Frames -/

def isReport (e : RawInputEvent) : Bool := e.type = evSyn ∧ e.code = synReport

/-- The events since the last report. -/
def frame (l : List (Instant × RawInputEvent)) : List RawInputEvent :=
  l.foldl (fun f e => if isReport e.2 then [] else f ++ [e.2]) []

/-- The codes of a wheel axis, in detents and in the finer unit. -/
structure WheelAxis where
  legacy : UInt16
  hiRes : UInt16

def WheelAxis.vertical : WheelAxis := ⟨relWheel, relWheelHiRes⟩

def WheelAxis.horizontal : WheelAxis := ⟨relHwheel, relHwheelHiRes⟩

def values (code : UInt16) (f : List RawInputEvent) : List Int32 :=
  (f.filter fun e => e.type = evRel ∧ e.code = code).map RawInputEvent.value

/-- The sum as `saturating_add` has it. -/
def saturatingSum (l : List Int32) : Int32 := l.foldl Evdev.saturatingAdd 0

/-- It is the sum where no beginning leaves the 32 bits. -/
lemma toInt_saturatingSum {l : List Int32}
    (h : ∀ m, m <+: l → -2 ^ 31 ≤ (m.map Int32.toInt).sum ∧ (m.map Int32.toInt).sum < 2 ^ 31) :
    (saturatingSum l).toInt = (l.map Int32.toInt).sum := by
  induction l using List.reverseRecOn with
  | nil => rfl
  | append_singleton l v ih =>
    have hsum := ih fun m hm => h m (hm.trans (List.prefix_append _ _))
    have hlast := h (l ++ [v]) List.prefix_rfl
    rw [List.map_append, List.sum_append, List.map_singleton, List.sum_singleton] at hlast ⊢
    rw [saturatingSum, List.foldl_append, List.foldl_cons, List.foldl_nil, toInt_saturatingAdd,
      ← saturatingSum, hsum, max_eq_left hlast.1, min_eq_left (by omega)]

namespace WheelAxis

/-- The sum in the finer unit. -/
def fine (axis : WheelAxis) (f : List RawInputEvent) : Int32 :=
  saturatingSum (values axis.hiRes f)

/-- The sum of the detents, in the finer unit. -/
def coarse (axis : WheelAxis) (f : List RawInputEvent) : Int32 :=
  saturatingMul (saturatingSum (values axis.legacy f)) 120

/-- What the axis has to report: the finer unit takes precedence where there was any. -/
def ticks (axis : WheelAxis) (f : List RawInputEvent) : Int32 :=
  if values axis.hiRes f = [] then axis.coarse f else axis.fine f

end WheelAxis

open WheelAxis

/-- The wheel a report has to carry. -/
def due (f : List RawInputEvent) : List InputEvent :=
  if horizontal.ticks f ≠ 0 ∨ vertical.ticks f ≠ 0 then
    [.smoothWheel (horizontal.ticks f) (vertical.ticks f)]
  else []

/-- The axes do not get in each other's way: if the finer unit comes to something, no axis has
detents only, and if it comes to nothing, no axis has detents beside it. -/
def Unmixed (f : List RawInputEvent) : Prop :=
  if horizontal.fine f ≠ 0 ∨ vertical.fine f ≠ 0 then
    ∀ axis ∈ [horizontal, vertical], values axis.hiRes f = [] → axis.coarse f = 0
  else
    ∀ axis ∈ [horizontal, vertical], values axis.hiRes f ≠ [] → axis.coarse f = 0

/-! ### A device -/

def step (d : Device) (e : Instant × RawInputEvent) : Device × List InputEvent :=
  d.process e.1 e.2

/-- A mouse behind some events; it may have keys too. -/
abbrev after (isKeyboard : Bool) (l : List (Instant × RawInputEvent)) : Device :=
  Trace.final step (.opened ⟨isKeyboard, true, false, false⟩) l

/-- The wheels among the events. -/
def wheels (events : List InputEvent) : List InputEvent :=
  events.filter fun event => match event with
    | .smoothWheel _ _ => true
    | _ => false

/-- The report carries what is due. -/
def Counted (isKeyboard : Bool) (m : List (Instant × RawInputEvent))
    (e : Instant × RawInputEvent) : Prop :=
  isReport e.2 = true → wheels (step (after isKeyboard m) e).2 = due (frame m)

def UnmixedAt (m : List (Instant × RawInputEvent)) (e : Instant × RawInputEvent) : Prop :=
  isReport e.2 = true → Unmixed (frame m)

/-! ### What is banked -/

/-- The four accumulators, the finer unit first. -/
def banked (d : Device) : (Int32 × Int32) × (Int32 × Int32) :=
  ((d.scrollX120ths, d.wheelDetentX), (d.scrollY120ths, d.wheelDetentY))

def sums (f : List RawInputEvent) : (Int32 × Int32) × (Int32 × Int32) :=
  ((horizontal.fine f, saturatingSum (values horizontal.legacy f)),
    (vertical.fine f, saturatingSum (values vertical.legacy f)))

lemma frame_snoc (l : List (Instant × RawInputEvent)) (e : Instant × RawInputEvent) :
    frame (l ++ [e]) = if isReport e.2 then [] else frame l ++ [e.2] := by
  rw [frame, List.foldl_append]
  rfl

lemma values_snoc (code : UInt16) (f : List RawInputEvent) (e : RawInputEvent) :
    values code (f ++ [e]) =
      values code f ++ if e.type = evRel ∧ e.code = code then [e.value] else [] := by
  rw [values, List.filter_append, List.map_append, List.filter_singleton, values]
  by_cases h : e.type = evRel ∧ e.code = code <;> simp [h]

lemma saturatingSum_snoc (l : List Int32) (v : Int32) :
    saturatingSum (l ++ [v]) = Evdev.saturatingAdd (saturatingSum l) v := by
  rw [saturatingSum, List.foldl_append]
  rfl

lemma sums_of_ne {f : List RawInputEvent} {e : RawInputEvent} (h : e.type ≠ evRel) :
    sums (f ++ [e]) = sums f := by
  simp only [sums, fine, values_snoc, h, false_and, if_false, List.append_nil]

/-- A relative event adds to the sum of its code, and to no other. -/
lemma banked_rel {d : Device} {f : List RawInputEvent} (h : banked d = sums f)
    {e : RawInputEvent} (he : e.type = evRel) :
    banked (d.rel e.code e.value) = sums (f ++ [e]) := by
  obtain ⟨hx, hy⟩ := Prod.mk.inj h
  obtain ⟨hfineX, hcoarseX⟩ := Prod.mk.inj hx
  obtain ⟨hfineY, hcoarseY⟩ := Prod.mk.inj hy
  simp only [sums, fine, values_snoc, he, true_and]
  unfold Device.rel
  split_ifs with h₀ h₁ h₂ h₃ h₄ h₅ <;>
    simp_all [banked, fine, saturatingSum_snoc, horizontal, vertical, relX, relY, relWheel,
      relHwheel, relWheelHiRes, relHwheelHiRes]

/-- A key of a mouse leaves the wheel alone. -/
lemma banked_mouseKey (d : Device) (code : UInt16) (value : Int32) :
    banked (d.mouseKey code value).1 = banked d := by
  unfold Device.mouseKey Device.pushKey Device.pressButton
  repeat' split
  all_goals rfl

/-- A mouse behind a frame: what it is, and what it has banked. -/
structure Banks (isKeyboard : Bool) (d : Device) (f : List RawInputEvent) : Prop where
  kind : d.kind = ⟨isKeyboard, true, false, false⟩
  banked : banked d = sums f

lemma kind_mouseKey (d : Device) (code : UInt16) (value : Int32) :
    (d.mouseKey code value).1.kind = d.kind := by
  unfold Device.mouseKey Device.pushKey Device.pressButton
  repeat' split
  all_goals rfl

lemma kind_rel (d : Device) (code : UInt16) (value : Int32) : (d.rel code value).kind = d.kind := by
  unfold Device.rel
  split_ifs <;> rfl

/-- What a mouse makes of an event. -/
lemma step_mouse {isKeyboard : Bool} {d : Device}
    (hkind : d.kind = ⟨isKeyboard, true, false, false⟩)
    (e : Instant × RawInputEvent) :
    step d e =
      if e.2.type = evKey then d.mouseKey e.2.code e.2.value
      else if e.2.type = evRel then (d.rel e.2.code e.2.value, [])
      else if isReport e.2 then d.report
      else (d, []) := by
  rw [step, Device.process, hkind]
  by_cases hkey : e.2.type = evKey <;> simp [isReport, hkey]

/-- The report of a mouse. -/
lemma report_mouse {isKeyboard : Bool} {d : Device}
    (hkind : d.kind = ⟨isKeyboard, true, false, false⟩) :
    d.report.1.kind = d.kind ∧ banked d.report.1 = sums [] ∧
      wheels d.report.2 =
        if d.scrollX120ths ≠ 0 ∨ d.scrollY120ths ≠ 0 then
          [.smoothWheel d.scrollX120ths d.scrollY120ths]
        else if d.wheelDetentX ≠ 0 ∨ d.wheelDetentY ≠ 0 then
          [.smoothWheel (saturatingMul d.wheelDetentX 120) (saturatingMul d.wheelDetentY 120)]
        else [] := by
  have hpad : ¬d.kind.isTouchpad = true := by rw [hkind]; exact Bool.false_ne_true
  simp only [Device.report, if_neg hpad]
  refine ⟨trivial, rfl, ?_⟩
  rw [wheels, List.filter_append]
  split_ifs <;> rfl

lemma Banks.step {isKeyboard : Bool} {d : Device} {f : List RawInputEvent}
    (h : Banks isKeyboard d f) (e : Instant × RawInputEvent) :
    Banks isKeyboard (step d e).1 (if isReport e.2 then [] else f ++ [e.2]) := by
  rw [step_mouse h.kind]
  by_cases hreport : isReport e.2 = true
  · have htype : e.2.type = evSyn := (of_decide_eq_true hreport).1
    obtain ⟨hkind, hbanked, -⟩ := report_mouse h.kind
    rw [if_neg (by rw [htype]; decide), if_neg (by rw [htype]; decide), if_pos hreport,
      if_pos hreport]
    exact ⟨hkind.trans h.kind, hbanked⟩
  · rw [if_neg hreport, if_neg hreport]
    by_cases hkey : e.2.type = evKey
    · have hne : e.2.type ≠ evRel := by rw [hkey]; decide
      rw [if_pos hkey]
      exact ⟨(kind_mouseKey ..).trans h.kind,
        by rw [banked_mouseKey, sums_of_ne hne, h.banked]⟩
    · by_cases hrel : e.2.type = evRel
      · rw [if_neg hkey, if_pos hrel]
        exact ⟨(kind_rel ..).trans h.kind, banked_rel h.banked hrel⟩
      · rw [if_neg hkey, if_neg hrel]
        exact ⟨h.kind, h.banked.trans (sums_of_ne hrel).symm⟩

lemma banks_after (isKeyboard : Bool) (l : List (Instant × RawInputEvent)) :
    Banks isKeyboard (after isKeyboard l) (frame l) := by
  induction l using List.reverseRecOn with
  | nil => exact ⟨rfl, rfl⟩
  | append_singleton l e ih =>
    rw [after, Trace.final_snoc, frame_snoc]
    exact ih.step e

/-! ### What a report carries -/

lemma saturatingMul_eq_zero {v : Int32} : saturatingMul v 120 = 0 ↔ v = 0 := by
  rw [← Int32.toInt_inj, saturatingMul, toInt_saturatingI32, ← Int32.toInt_inj]
  simp only [show (120 : Int32).toInt = 120 from rfl, Int32.toInt_zero]
  omega

/-- A report carries what is due exactly if the axes do not get in each other's way. -/
lemma due_iff (f : List RawInputEvent) :
    (if horizontal.fine f ≠ 0 ∨ vertical.fine f ≠ 0 then
        [InputEvent.smoothWheel (horizontal.fine f) (vertical.fine f)]
      else if horizontal.coarse f ≠ 0 ∨ vertical.coarse f ≠ 0 then
        [.smoothWheel (horizontal.coarse f) (vertical.coarse f)]
      else []) = due f ↔ Unmixed f := by
  have hnone (axis : WheelAxis) (h : values axis.hiRes f = []) : axis.fine f = 0 := by
    rw [fine, h]
    rfl
  have hX := hnone horizontal
  have hY := hnone vertical
  simp only [due, Unmixed, ticks, List.forall_mem_cons, List.not_mem_nil, false_imp_iff,
    implies_true, and_true]
  by_cases hemptyX : values horizontal.hiRes f = [] <;>
    by_cases hemptyY : values vertical.hiRes f = [] <;>
    grind

lemma counted_iff (isKeyboard : Bool) (m : List (Instant × RawInputEvent))
    (e : Instant × RawInputEvent) : Counted isKeyboard m e ↔ UnmixedAt m e := by
  refine imp_congr_right fun hreport => ?_
  have hbanks := banks_after isKeyboard m
  have htype : e.2.type = evSyn := (of_decide_eq_true hreport).1
  obtain ⟨hx, hy⟩ := Prod.mk.inj hbanks.banked
  obtain ⟨hfineX, hcoarseX⟩ := Prod.mk.inj hx
  obtain ⟨hfineY, hcoarseY⟩ := Prod.mk.inj hy
  rw [step_mouse hbanks.kind, if_neg (by rw [htype]; decide), if_neg (by rw [htype]; decide),
    if_pos hreport, (report_mouse hbanks.kind).2.2, ← due_iff]
  simp only [coarse, ne_eq, saturatingMul_eq_zero, hfineX, hcoarseX, hfineY, hcoarseY]

/-- **When every tick is counted once.** At all reports of a mouse the wheel carries what is due
exactly if in no frame the axes get in each other's way. -/
theorem scroll_counted_iff (isKeyboard : Bool) (l : List (Instant × RawInputEvent)) :
    Trace.Each (Counted isKeyboard) l ↔ Trace.Each UnmixedAt l :=
  forall₃_congr fun m e _ => counted_iff isKeyboard m e

/-! ### A tilt beside the finer unit -/

/-- A quarter of a notch down in the finer unit, and one detent to the right. -/
def mixed : List (Instant × RawInputEvent) :=
  [(0, ⟨evRel, relWheelHiRes, 30⟩), (0, ⟨evRel, relHwheel, 1⟩), (0, ⟨evSyn, synReport, 0⟩)]

/-- The detent is lost. -/
theorem tilt_is_lost : Trace.outputs step (.opened ⟨false, true, false, false⟩) mixed =
      [[], [], [.smoothWheel 0 30]] ∧
    due (frame (mixed.take 2)) = [.smoothWheel 120 30] ∧
    ¬Trace.Each (Counted false) mixed := by
  refine ⟨by decide, by decide, fun h => ?_⟩
  have hcounted := h (mixed.take 2) (0, ⟨evSyn, synReport, 0⟩) (by rfl) (by decide)
  exact absurd hcounted (by decide)

end TheKvm.EvdevScroll

import TheKvm.Core.Return
import TheKvm.Daemon.Pinch
import Mathlib.Algebra.Order.Group.Abs
import Mathlib.Algebra.Order.Ring.Int

/-!
The multitouch tap that reads pinch gestures beside the X11 capture.

Frames of contacts feed a gesture machine, which puts out spreads and the ends of gestures. At
most one event waits for the next poll, and the first of a drain wins.
-/

namespace TheKvm.PinchTap

/-! ### The gesture machine -/

def pinchEngageUnits : ℤ := 192
def scrollDominance : ℤ := 2
def scrollNoiseFloor : ℤ := 4
def takeoverFrames : UInt32 := 5
def detentsPerSpan : ℤ := 24

structure PinchState where
  anchor : Option ℤ
  prev : Option ℤ
  prevMid : Option (ℤ × ℤ)
  acc : ℤ
  unitsPerDetent : ℤ
  engaged : Bool
  scrollStreak : UInt32
  deriving DecidableEq

abbrev Contact := Int32 × Int32

/-- How far two contacts are apart. -/
def spreadOf (a b : Contact) : ℤ := |a.1.toInt - b.1.toInt| + |a.2.toInt - b.2.toInt|

/-- Two contacts are at most two whole sides of the sensor apart. -/
lemma spreadOf_bounds (a b : Contact) : 0 ≤ spreadOf a b ∧ spreadOf a b < 2 ^ 33 := by
  have hax := Int32.toInt_bounds a.1
  have hay := Int32.toInt_bounds a.2
  have hbx := Int32.toInt_bounds b.1
  have hby := Int32.toInt_bounds b.2
  have hx : |a.1.toInt - b.1.toInt| ≤ 2 ^ 32 - 1 := abs_le.mpr ⟨by omega, by omega⟩
  have hy : |a.2.toInt - b.2.toInt| ≤ 2 ^ 32 - 1 := abs_le.mpr ⟨by omega, by omega⟩
  have hx' := abs_nonneg (a.1.toInt - b.1.toInt)
  have hy' := abs_nonneg (a.2.toInt - b.2.toInt)
  rw [spreadOf]
  omega

def midOf (a b : Contact) : ℤ × ℤ :=
  ((a.1.toInt + b.1.toInt).tdiv 2, (a.2.toInt + b.2.toInt).tdiv 2)

/-- The contacts move together more than apart. -/
def PinchState.Scrolls (s : PinchState) (a b : Contact) : Prop :=
  let spreadStep := spreadOf a b - s.prev.getD (spreadOf a b)
  let prevMid := s.prevMid.getD (midOf a b)
  let midStep := |(midOf a b).1 - prevMid.1| + |(midOf a b).2 - prevMid.2|
  scrollNoiseFloor ≤ midStep ∧ |spreadStep| * scrollDominance < midStep

instance (s : PinchState) (a b : Contact) : Decidable (s.Scrolls a b) :=
  inferInstanceAs (Decidable (_ ∧ _))

/-- `PinchState::feed`: the zoom in 120ths, and whether a gesture just ended. -/
def PinchState.feed (s : PinchState) : List Contact → PinchState × Int32 × Bool
  | [a, b] =>
    let spread := spreadOf a b
    match s.anchor with
    | none =>
      ({ s with anchor := some spread, prev := some spread, prevMid := some (midOf a b) }, 0, false)
    | some anchor =>
      let prev := s.prev.getD spread
      if s.Scrolls a b then
        let streak := s.scrollStreak + 1
        let s := { s with
          prev := some spread, prevMid := some (midOf a b), scrollStreak := streak,
          anchor := some spread }
        if s.engaged ∧ takeoverFrames ≤ streak then
          ({ s with engaged := false, scrollStreak := 0, acc := 0 }, 0, true)
        else (s, 0, false)
      else
        let engaged := s.engaged || decide (pinchEngageUnits ≤ |spread - anchor|)
        let s := { s with
          prev := some spread, prevMid := some (midOf a b), scrollStreak := 0, engaged }
        if engaged then
          let acc := wrapI64 (s.acc + (spread - prev))
          let det := acc.tdiv (max s.unitsPerDetent 1)
          ({ s with acc := acc - det * max s.unitsPerDetent 1 },
            Int32.ofInt (max (-1000) (min det 1000) * 120), false)
        else (s, 0, false)
  | _ =>
    ({ s with
      anchor := none, prev := none, prevMid := none, acc := 0, engaged := false,
      scrollStreak := 0 }, 0, s.engaged)

/-- The frame ends the gesture: a finger came or went, or scrolling takes over. -/
def PinchState.EndsOn (s : PinchState) (contacts : List Contact) : Prop :=
  s.engaged = true ∧
    match contacts with
    | [a, b] => s.anchor.isSome ∧ s.Scrolls a b ∧ takeoverFrames ≤ s.scrollStreak + 1
    | _ => True

lemma feed_ended {s : PinchState} {contacts : List Contact} :
    (s.feed contacts).2.2 = true ↔ s.EndsOn contacts := by
  unfold PinchState.feed PinchState.EndsOn
  split
  · rcases s.anchor with _ | anchor
    · simp
    · simp only
      split_ifs <;> simp_all
  · simp

/-- A frame either ends the gesture and zooms nothing, or keeps it, or may begin one. -/
lemma feed_engaged {s : PinchState} {contacts : List Contact} :
    (s.EndsOn contacts → (s.feed contacts).1.engaged = false ∧ (s.feed contacts).2.1 = 0) ∧
      (¬s.EndsOn contacts → s.engaged = true → (s.feed contacts).1.engaged = true) ∧
      ((s.feed contacts).2.1 ≠ 0 → (s.feed contacts).1.engaged = true) := by
  unfold PinchState.feed PinchState.EndsOn
  split
  · rcases s.anchor with _ | anchor
    · simp
    · simp only
      split_ifs <;> simp_all
  · simp

/-! ### A tap device -/

def evSyn : UInt16 := 0x00
def evAbs : UInt16 := 0x03
def synReport : UInt16 := 0
def absMtSlot : UInt16 := 0x2f
def absMtPositionX : UInt16 := 0x35
def absMtPositionY : UInt16 := 0x36
def absMtTrackingId : UInt16 := 0x39

structure RawEv where
  type : UInt16
  code : UInt16
  value : Int32
  deriving DecidableEq

/-- The contacts by slot, in the order of the slots. -/
abbrev Contacts := List (Int32 × Contact)

/-- `entry(slot).or_insert((0, 0))`, then `f`. -/
def modifySlot (slot : Int32) (f : Contact → Contact) : Contacts → Contacts
  | [] => [(slot, f (0, 0))]
  | (s, contact) :: rest =>
    if slot < s then (slot, f (0, 0)) :: (s, contact) :: rest
    else if slot = s then (s, f contact) :: rest
    else (s, contact) :: modifySlot slot f rest

structure TapDevice where
  contacts : Contacts
  slot : Int32
  pinch : PinchState
  pending : Option InputEvent
  deriving DecidableEq

/-- `open_node`, of a sensor `span` wide. -/
def TapDevice.start (span : Int32) : TapDevice :=
  ⟨[], 0, ⟨none, none, none, 0, max ((max span.toInt 1).tdiv detentsPerSpan) 1, false, 0⟩, none⟩

/-- The contacts a frame is made of. -/
def TapDevice.snapshot (d : TapDevice) : List Contact := d.contacts.map (·.2)

def RawEv.isReport (event : RawEv) : Bool := event.type = evSyn && event.code = synReport

/-- `TapDevice::ingest`. -/
def TapDevice.ingest (d : TapDevice) (event : RawEv) : TapDevice :=
  if event.type = evAbs then
    if event.code = absMtSlot then { d with slot := event.value }
    else if event.code = absMtTrackingId then
      if 0 ≤ event.value then { d with contacts := modifySlot d.slot id d.contacts }
      else { d with contacts := d.contacts.filter (·.1 ≠ d.slot) }
    else if event.code = absMtPositionX then
      { d with contacts := modifySlot d.slot (fun c => (event.value, c.2)) d.contacts }
    else if event.code = absMtPositionY then
      { d with contacts := modifySlot d.slot (fun c => (c.1, event.value)) d.contacts }
    else d
  else if event.isReport then
    let (pinch, zoom, ended) := d.pinch.feed d.snapshot
    { d with
      pinch
      pending :=
        if d.pending.isNone then
          if zoom ≠ 0 then some (.pinch zoom) else if ended then some .pinchEnd else none
        else d.pending }
  else d

/-- The end of `poll`, behind its reads. -/
def TapDevice.take (d : TapDevice) : TapDevice × Option InputEvent :=
  ({ d with pending := none }, d.pending)

/-- An event that is no frame leaves the gesture and what waits alone. -/
lemma ingest_other {d : TapDevice} {event : RawEv} (h : event.isReport = false) :
    (d.ingest event).pinch = d.pinch ∧ (d.ingest event).pending = d.pending := by
  unfold TapDevice.ingest
  split_ifs <;> simp_all

lemma ingest_report {d : TapDevice} {event : RawEv} (h : event.isReport = true) :
    d.ingest event =
      { d with
        pinch := (d.pinch.feed d.snapshot).1
        pending :=
          if d.pending.isNone then
            if (d.pinch.feed d.snapshot).2.1 ≠ 0 then some (.pinch (d.pinch.feed d.snapshot).2.1)
            else if (d.pinch.feed d.snapshot).2.2 then some .pinchEnd else none
          else d.pending } := by
  have htype : event.type ≠ evAbs := by
    simp only [RawEv.isReport, Bool.and_eq_true, decide_eq_true_eq] at h
    rw [h.1]
    decide
  rw [TapDevice.ingest, if_neg htype, if_pos h]

/-! ### Gestures and what is returned of them -/

/-- A device, how many gestures were engaged so far, the one what waits is of, and what was
returned with its gesture. -/
structure Watch where
  device : TapDevice
  gesture : ℕ
  pendingOf : ℕ
  returned : List (InputEvent × ℕ)

inductive Op
  | ingest (event : RawEv)
  | poll
  deriving DecidableEq

def Watch.step (w : Watch) : Op → Watch × Option InputEvent
  | .ingest event =>
    let device := w.device.ingest event
    let gesture :=
      if w.device.pinch.engaged = false ∧ device.pinch.engaged = true then w.gesture + 1
      else w.gesture
    ({ w with
        device, gesture
        pendingOf := if w.device.pending.isNone then gesture else w.pendingOf }, none)
  | .poll =>
    let (device, event) := w.device.take
    ({ w with
        device
        returned := w.returned ++ (event.map fun e => (e, w.pendingOf)).toList }, event)

def Watch.start (span : Int32) : Watch := ⟨TapDevice.start span, 0, 0, []⟩

/-- The tap behind the steps of a run. -/
abbrev after (span : Int32) (ops : List Op) : Watch :=
  Trace.final Watch.step (Watch.start span) ops

/-- Gesture `g` is over. -/
def Watch.Over (w : Watch) (g : ℕ) : Prop :=
  g < w.gesture ∨ g = w.gesture ∧ w.device.pinch.engaged = false

/-- Behind each spread of gesture `g` comes an end, before any spread of a later gesture. -/
def Ended (returned : List (InputEvent × ℕ)) (g : ℕ) : Prop :=
  ∀ l delta r, returned = l ++ (.pinch delta, g) :: r →
    ∃ mid g' rest, r = mid ++ (.pinchEnd, g') :: rest ∧ ∀ e ∈ mid, e.2 ≤ g

/-- The Ctrl hold of the driver's session with a peer that knows no gestures, behind some
events that find the real Ctrl as the flags have it. -/
def pinchHeldAfter (events : List (InputEvent × Bool)) : Bool :=
  events.foldl (fun held e => (pinchForSend e.1 false e.2 held).2) false

/-- The gestures that are over have ended in what was returned, and with no gesture under way
the driver holds no Ctrl for one. -/
structure Watch.AllEnded (w : Watch) : Prop where
  ended : ∀ g, w.Over g → Ended w.returned g
  letGo : w.device.pinch.engaged = false →
    ∀ events : List (InputEvent × Bool), events.map (·.1) = w.returned.map (·.1) →
      pinchHeldAfter events = false

/-! ### Ends behind spreads -/

variable {returned : List (InputEvent × ℕ)} {g g' : ℕ} {delta : Int32}

lemma ended_nil : Ended [] g := fun l delta r h => absurd h (by simp)

/-- An event behind is none of the gesture's spreads. -/
lemma Ended.snoc (h : Ended returned g) {e : InputEvent × ℕ} (he : ∀ delta, e ≠ (.pinch delta, g)) :
    Ended (returned ++ [e]) g := by
  intro l delta r hsplit
  rcases List.eq_nil_or_concat r with rfl | ⟨r, y, rfl⟩
  · obtain ⟨-, hlast⟩ := List.append_inj' hsplit rfl
    exact absurd (List.singleton_inj.mp hlast) (he delta)
  · have hassoc : returned ++ [e] = (l ++ (.pinch delta, g) :: r) ++ [y] := by
      rw [hsplit, List.append_assoc, List.concat_eq_append, List.cons_append]
    obtain ⟨rfl, hlast⟩ := List.append_inj' hassoc rfl
    obtain ⟨mid, g', rest, rfl, hmid⟩ := h l delta r rfl
    exact ⟨mid, g', rest ++ [y], by simp, hmid⟩

/-- An end ends every gesture of which no later one has spread. -/
lemma ended_of_end (h : ∀ e ∈ returned, e.2 ≤ g) : Ended (returned ++ [(.pinchEnd, g')]) g := by
  intro l delta r hsplit
  rcases List.eq_nil_or_concat r with rfl | ⟨r, y, rfl⟩
  · obtain ⟨-, hlast⟩ := List.append_inj' hsplit rfl
    cases List.singleton_inj.mp hlast
  · have hassoc : returned ++ [(.pinchEnd, g')] = (l ++ (.pinch delta, g) :: r) ++ [y] := by
      rw [hsplit, List.append_assoc, List.concat_eq_append, List.cons_append]
    obtain ⟨rfl, hlast⟩ := List.append_inj' hassoc rfl
    obtain rfl := List.singleton_inj.mp hlast
    refine ⟨r, g', [], List.concat_eq_append, fun e he => h e ?_⟩
    exact List.mem_append_right _ (List.mem_cons_of_mem _ he)

lemma not_ended_snoc : ¬Ended (returned ++ [(.pinch delta, g)]) g := by
  intro h
  obtain ⟨mid, g', rest, hsplit, -⟩ := h returned delta [] rfl
  exact absurd hsplit (by simp)

/-! ### The driver's Ctrl -/

lemma pinchHeld_step (held ctrl : Bool) (event : InputEvent) :
    (pinchForSend event false ctrl held).2 = true →
      (∃ delta, event = .pinch delta) ∨ held = true ∧ event ≠ .pinchEnd := by
  cases event with
  | pinch delta => exact fun _ => Or.inl ⟨delta, rfl⟩
  | pinchEnd => cases held <;> simp [pinchForSend, pinchExpansion]
  | _ => exact fun h => Or.inr ⟨h, by simp⟩

/-- A hold is one of a spread behind which no end came. -/
lemma exists_spread_of_held {events : List (InputEvent × Bool)} (h : pinchHeldAfter events = true) :
    ∃ l delta ctrl r, events = l ++ (.pinch delta, ctrl) :: r ∧ ∀ e ∈ r, e.1 ≠ .pinchEnd := by
  induction events using List.reverseRecOn with
  | nil => cases h
  | append_singleton events e ih =>
    rw [pinchHeldAfter, List.foldl_append] at h
    rcases pinchHeld_step _ _ _ h with ⟨delta, hspread⟩ | ⟨hheld, hend⟩
    · exact ⟨events, delta, e.2, [], by rw [← hspread], by simp⟩
    · obtain ⟨l, delta, ctrl, r, rfl, hr⟩ := ih hheld
      refine ⟨l, delta, ctrl, r ++ [e], by simp, fun x hx => ?_⟩
      rcases List.mem_append.mp hx with hx | hx
      · exact hr x hx
      · rwa [List.mem_singleton.mp hx]

lemma letGo_of_ended (h : ∀ e ∈ returned, Ended returned e.2)
    {events : List (InputEvent × Bool)} (hevents : events.map (·.1) = returned.map (·.1)) :
    pinchHeldAfter events = false := by
  by_contra hheld
  obtain ⟨l, delta, ctrl, r, rfl, hr⟩ := exists_spread_of_held (Bool.not_eq_false _ ▸ hheld)
  rw [List.map_append, List.map_cons] at hevents
  obtain ⟨l', rest, rfl, hl', hrest⟩ := List.map_eq_append_iff.mp hevents.symm
  obtain ⟨x, r', rfl, hx, hr'⟩ := List.map_eq_cons_iff.mp hrest
  obtain ⟨event, g⟩ := x
  obtain rfl : event = .pinch delta := hx
  obtain ⟨mid, g', rest', rfl, -⟩ := h (.pinch delta, g) (by simp) l' delta r' rfl
  have hend : InputEvent.pinchEnd ∈ r.map (·.1) := by
    rw [← hr']
    simp
  obtain ⟨e, he, heq⟩ := List.mem_map.mp hend
  exact hr e he heq

/-! ### What a step keeps -/

/-- What was returned, with what the next poll returns. -/
def Watch.due (w : Watch) : List (InputEvent × ℕ) :=
  w.returned ++ (w.device.pending.map fun e => (e, w.pendingOf)).toList

structure Watch.Kept (w : Watch) : Prop where
  ended : ∀ g, w.Over g → Ended w.due g
  low : ∀ e ∈ w.due, e.2 ≤ w.gesture
  kind : ∀ e ∈ w.device.pending, e = .pinchEnd ∨ ∃ delta, e = .pinch delta

/-- A gesture ends while a spread waits for the poll. -/
def Cuts (w : Watch) (op : Op) : Prop :=
  ∃ event delta, op = .ingest event ∧ event.isReport = true ∧
    w.device.pinch.EndsOn w.device.snapshot ∧ w.device.pending = some (.pinch delta)

variable {w : Watch}

lemma due_poll : (w.step .poll).1.due = w.due := by
  simp [Watch.step, Watch.due, TapDevice.take]

lemma Watch.Kept.poll (h : w.Kept) : (w.step .poll).1.Kept := by
  refine ⟨fun g hg => ?_, ?_, fun e he => by cases he⟩
  · rw [due_poll]
    exact h.ended g hg
  · rw [due_poll]
    exact h.low

lemma Watch.Kept.other (h : w.Kept) {event : RawEv} (hreport : event.isReport = false) :
    (w.step (.ingest event)).1.Kept := by
  obtain ⟨hpinch, hpending⟩ := ingest_other (d := w.device) hreport
  have hdue : (w.step (.ingest event)).1.due = w.due := by
    simp only [Watch.step, Watch.due, hpending]
    rcases w.device.pending with _ | e <;> rfl
  have hgesture : (w.step (.ingest event)).1.gesture = w.gesture := by
    simp only [Watch.step, hpinch]
    exact if_neg (by simp)
  refine ⟨fun g hg => ?_, fun e he => ?_, fun e he => ?_⟩
  · rw [Watch.Over, hgesture] at hg
    simp only [Watch.step, hpinch] at hg
    rw [hdue]
    exact h.ended g hg
  · rw [hgesture]
    exact h.low e (hdue ▸ he)
  · simp only [Watch.step, hpending] at he
    exact h.kind e he

/-- A frame that ends the gesture, before a poll that has nothing else to return. -/
lemma Watch.Kept.ends (h : w.Kept) {event : RawEv} (hreport : event.isReport = true)
    (hends : w.device.pinch.EndsOn w.device.snapshot)
    (hwait : ∀ delta, w.device.pending ≠ some (.pinch delta)) :
    (w.step (.ingest event)).1.Kept := by
  obtain ⟨hover, hzoom⟩ := feed_engaged.1 hends
  have hended := feed_ended.mpr hends
  have hstep : (w.step (.ingest event)).1 =
      { w with
        device := { w.device with
          pinch := (w.device.pinch.feed w.device.snapshot).1
          pending := some .pinchEnd }
        pendingOf := if w.device.pending.isNone then w.gesture else w.pendingOf } := by
    simp only [Watch.step, ingest_report hreport, hover, hzoom, hended]
    rcases hpending : w.device.pending with _ | e
    · simp
    · rcases h.kind e hpending with rfl | ⟨delta, rfl⟩
      · simp
      · exact absurd hpending (hwait delta)
  have hlow : ∀ e ∈ w.returned, e.2 ≤ w.gesture :=
    fun e he => h.low e (List.mem_append_left _ he)
  have hpendingOf : (if w.device.pending.isNone then w.gesture else w.pendingOf) ≤ w.gesture := by
    rcases hpending : w.device.pending with _ | e
    · exact le_refl w.gesture
    · exact h.low (e, w.pendingOf) (by simp [Watch.due, hpending])
  rw [hstep]
  refine ⟨fun g hg => ?_, fun e he => ?_, fun e he => ?_⟩
  · rcases hg with hlt | ⟨rfl, -⟩
    · have hprev := h.ended g (Or.inl hlt)
      rcases hpending : w.device.pending with _ | e
      · rw [Watch.due, hpending, Option.map_none, Option.toList_none, List.append_nil] at hprev
        exact hprev.snoc (by simp)
      · rcases h.kind e hpending with rfl | ⟨delta, rfl⟩
        · rw [Watch.due, hpending] at hprev
          exact hprev
        · exact absurd hpending (hwait delta)
    · exact ended_of_end hlow
  · rcases List.mem_append.mp he with he | he
    · exact hlow e he
    · obtain rfl := List.mem_singleton.mp he
      exact hpendingOf
  · obtain rfl := Option.some.inj he
    exact Or.inl rfl

/-- A frame that ends no gesture. -/
lemma Watch.Kept.goes (h : w.Kept) {event : RawEv} (hreport : event.isReport = true)
    (hends : ¬w.device.pinch.EndsOn w.device.snapshot) : (w.step (.ingest event)).1.Kept := by
  have hended : (w.device.pinch.feed w.device.snapshot).2.2 = false := by
    rw [Bool.eq_false_iff, ne_eq, feed_ended]
    exact hends
  obtain ⟨-, hstays, hspreads⟩ := @feed_engaged w.device.pinch w.device.snapshot
  set w' := (w.step (.ingest event)).1 with hw'
  have hengaged : w'.device.pinch.engaged =
      (w.device.pinch.feed w.device.snapshot).1.engaged := by
    simp only [hw', Watch.step, ingest_report hreport]
  have hgesture : w'.gesture = if w.device.pinch.engaged = false ∧ w'.device.pinch.engaged = true
      then w.gesture + 1 else w.gesture := rfl
  have hle : w.gesture ≤ w'.gesture := by
    rw [hgesture]
    split_ifs <;> omega
  -- a gesture over by now was over before
  have hover : ∀ g, w'.Over g → w.Over g := by
    intro g hg
    rcases hbefore : w.device.pinch.engaged with _ | _
    · rcases hg with hlt | ⟨rfl, hnow⟩
      · rw [hgesture] at hlt
        split_ifs at hlt with hbegins
        · rcases Nat.lt_succ_iff_lt_or_eq.mp hlt with hlt | rfl
          · exact Or.inl hlt
          · exact Or.inr ⟨rfl, hbefore⟩
        · exact Or.inl hlt
      · rw [hgesture, if_neg (by simp [hnow])]
        exact Or.inr ⟨rfl, hbefore⟩
    · have hnow : w'.device.pinch.engaged = true := hengaged.trans (hstays hends hbefore)
      rcases hg with hlt | ⟨-, hnot⟩
      · rw [hgesture, if_neg (by simp [hbefore])] at hlt
        exact Or.inl hlt
      · rw [hnow] at hnot
        cases hnot
  have hdue : w'.due = w.due ∨ ∃ delta, w'.due = w.due ++ [(.pinch delta, w'.gesture)] ∧
      w'.device.pinch.engaged = true := by
    rw [hengaged]
    simp only [Watch.due, hw', Watch.step, ingest_report hreport, hended]
    rcases hpending : w.device.pending with _ | e
    · by_cases hzoom : (w.device.pinch.feed w.device.snapshot).2.1 = 0
      · simp [hzoom]
      · refine Or.inr ⟨(w.device.pinch.feed w.device.snapshot).2.1, ?_, hspreads hzoom⟩
        simp [hzoom]
    · exact Or.inl (by simp)
  refine ⟨fun g hg => ?_, fun e he => ?_, fun e he => ?_⟩
  · have hprev := h.ended g (hover g hg)
    rcases hdue with hdue | ⟨delta, hdue, hnow⟩
    · rwa [hdue]
    · rw [hdue]
      refine hprev.snoc fun delta' heq => ?_
      obtain ⟨-, rfl⟩ := Prod.mk.inj heq
      rcases hg with hlt | ⟨-, hnot⟩
      · exact lt_irrefl _ hlt
      · rw [hnow] at hnot
        cases hnot
  · rcases hdue with hdue | ⟨delta, hdue, -⟩
    · exact (h.low e (hdue ▸ he)).trans hle
    · rw [hdue] at he
      rcases List.mem_append.mp he with he | he
      · exact (h.low e he).trans hle
      · obtain rfl := List.mem_singleton.mp he
        exact le_refl _
  · simp only [hw', Watch.step, ingest_report hreport, hended] at he
    rcases hpending : w.device.pending with _ | e'
    · rw [hpending] at he
      by_cases hzoom : (w.device.pinch.feed w.device.snapshot).2.1 = 0
      · simp [hzoom] at he
      · simp only [Option.isNone_none, if_true, ne_eq, hzoom, not_false_eq_true] at he
        exact Or.inr ⟨_, (Option.some.inj he).symm⟩
    · rw [hpending] at he
      exact h.kind e (hpending ▸ he)

lemma Watch.Kept.step (h : w.Kept) {op : Op} (hcut : ¬Cuts w op) : (w.step op).1.Kept := by
  cases op with
  | poll => exact h.poll
  | ingest event =>
    rcases hreport : event.isReport with _ | _
    · exact h.other hreport
    · by_cases hends : w.device.pinch.EndsOn w.device.snapshot
      · exact h.ends hreport hends fun delta hp => hcut ⟨event, delta, rfl, hreport, hends, hp⟩
      · exact h.goes hreport hends

/-! ### Runs -/

lemma kept_after {span : Int32} {ops : List Op}
    (h : Trace.Each (fun before op => ¬Cuts (after span before) op) ops) :
    (after span ops).Kept := by
  refine Trace.invariant (I := fun _ w => Watch.Kept w) ?_ (fun m op hm hcut => hm.step hcut) h
  exact ⟨fun g _ => ended_nil, fun e he => absurd he List.not_mem_nil, fun e he => by cases he⟩

/-- What a poll returns ends what is over. -/
lemma Watch.Kept.allEnded (h : w.Kept) : (w.step .poll).1.AllEnded := by
  have hreturned : (w.step .poll).1.returned = w.due := rfl
  refine ⟨fun g hg => ?_, fun hidle events hevents => ?_⟩
  · rw [hreturned]
    exact h.ended g hg
  · refine letGo_of_ended (fun e he => ?_) hevents
    rw [hreturned] at he ⊢
    refine h.ended e.2 ?_
    rcases (h.low e he).lt_or_eq with hlt | heq
    · exact Or.inl hlt
    · exact Or.inr ⟨heq, hidle⟩

/-- A gesture cut off has not ended when the poll returns its spread. -/
lemma Watch.Kept.not_allEnded (h : w.Kept) {op : Op} (hcut : Cuts w op) :
    ¬((w.step op).1.step .poll).1.AllEnded := by
  obtain ⟨event, delta, rfl, hreport, hends, hpending⟩ := hcut
  intro hall
  obtain ⟨hover, -⟩ := feed_engaged.1 hends
  have hlow : w.pendingOf ≤ w.gesture := h.low (.pinch delta, w.pendingOf) (by
    simp [Watch.due, hpending])
  have hended := hall.ended w.pendingOf (by
    simp only [Watch.Over, Watch.step, TapDevice.take, ingest_report hreport, hover]
    exact hlow.lt_or_eq.imp (fun hlt => by simpa using hlt) fun heq => by simpa using heq)
  have hreturned : ((w.step (.ingest event)).1.step .poll).1.returned =
      w.returned ++ [(.pinch delta, w.pendingOf)] := by
    simp [Watch.step, TapDevice.take, ingest_report hreport, hpending]
  rw [hreturned] at hended
  exact not_ended_snoc hended

/-- **Pinch gestures end.** Wherever a run is polled, every gesture that is over has its end
returned behind its spreads and before those of a later one, and the driver's Ctrl is let go,
exactly if no gesture ends in a drain that already has a spread to return. -/
theorem all_ended_iff (span : Int32) (ops : List Op) :
    (∀ m, m <+: ops → (after span (m ++ [.poll])).AllEnded) ↔
      Trace.Each (fun before op => ¬Cuts (after span before) op) ops := by
  have hpoll : ∀ m, after span (m ++ [.poll]) = ((after span m).step .poll).1 :=
    fun m => Trace.final_snoc _ _ _ _
  refine (Trace.each_iff ?_ fun m op _ hcond _ => ⟨fun hall hcut => ?_, fun hcut => ?_⟩).symm
  · rw [hpoll]
    exact (kept_after Trace.each_nil).allEnded
  · rw [hpoll, after, Trace.final_snoc] at hall
    exact (kept_after hcond).not_allEnded hcut hall
  · rw [hpoll]
    exact (kept_after (Trace.each_snoc.mpr ⟨hcond, hcut⟩)).allEnded

def report : RawEv := ⟨evSyn, synReport, 0⟩

/-- Two fingers that spread, spread on, and lift, the last two between two polls. -/
def liftedInOneDrain : List Op :=
  [.ingest ⟨evAbs, absMtTrackingId, 1⟩, .ingest ⟨evAbs, absMtSlot, 1⟩,
    .ingest ⟨evAbs, absMtTrackingId, 2⟩, .ingest report,
    .ingest ⟨evAbs, absMtPositionX, 1000⟩, .ingest report, .poll,
    .ingest ⟨evAbs, absMtPositionX, 2000⟩, .ingest report,
    .ingest ⟨evAbs, absMtTrackingId, -1⟩, .ingest report, .poll, .poll]

theorem liftedInOneDrain_held :
    (after 3072 liftedInOneDrain).device.pinch.engaged = false ∧
      (after 3072 liftedInOneDrain).returned = [(.pinch 840, 1), (.pinch 960, 1)] ∧
      pinchHeldAfter [(.pinch 840, false), (.pinch 960, false)] = true := by
  decide

end TheKvm.PinchTap

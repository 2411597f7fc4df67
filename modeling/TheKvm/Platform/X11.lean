import TheKvm.Core.Router
import TheKvm.Lib.Trace
import TheKvm.Platform.Keys
import Mathlib.Data.Finset.Image

/-!
The X11 capture across grabs.

The server queues a raw event for each transition, or a core event while a core grab is held,
and the capture reads the queue later. It drops the family that the grab it holds by then
does not read.
-/

namespace TheKvm.X11

/-! ### Events -/

/-- The device an event comes from. -/
abbrev DeviceId := UInt16

/-- A key or a button as the server numbers them. -/
inductive Detail
  | key (keycode : UInt8)
  | button (button : UInt8)
  deriving DecidableEq

/-- `XinputRawKeyPress`, `KeyPress` and their kin. -/
inductive XEvent
  | raw (sourceid : DeviceId) (detail : Detail) (pressed : Bool)
  | core (detail : Detail) (pressed : Bool)
  deriving DecidableEq

/-- `key_event`. -/
def keyEvent (keycode : UInt8) (pressed : Bool) : Option InputEvent :=
  if 8 ≤ keycode then
    (hidFromEvdev (keycode - 8).toUInt16).map fun usage => .key ⟨usage, pressed, false⟩
  else none

/-- `button_event`. -/
def buttonEvent (detail : UInt8) (pressed : Bool) : Option InputEvent :=
  match detail.toNat with
  | 1 => some (.mouseButton .left pressed)
  | 2 => some (.mouseButton .middle pressed)
  | 3 => some (.mouseButton .right pressed)
  | 4 => if pressed then some (.smoothWheel 0 120) else none
  | 5 => if pressed then some (.smoothWheel 0 (-120)) else none
  | 6 => if pressed then some (.smoothWheel 120 0) else none
  | 7 => if pressed then some (.smoothWheel (-120) 0) else none
  | 8 => some (.mouseButton .back pressed)
  | 9 => some (.mouseButton .forward pressed)
  | _ => none

def Detail.event : Detail → Bool → Option InputEvent
  | .key keycode => keyEvent keycode
  | .button detail => buttonEvent detail

/-- The key or button the capture has for a detail. -/
def Detail.control : Detail → Option KeyOrButton
  | .key keycode =>
    if 8 ≤ keycode then (hidFromEvdev (keycode - 8).toUInt16).map .key else none
  | .button detail =>
    match detail.toNat with
    | 1 => some (.button .left)
    | 2 => some (.button .middle)
    | 3 => some (.button .right)
    | 8 => some (.button .back)
    | 9 => some (.button .forward)
    | _ => none

/-! ### The capture -/

inductive GrabKind
  | none | xi | core
  deriving DecidableEq

/-- `held_keys`: when each key was pressed and when it last repeated. -/
abbrev HeldKeys := List (HidUsage × Instant × Instant)

structure Capture where
  exclusive : Bool
  grabKind : GrabKind
  heldKeys : HeldKeys
  deriving DecidableEq

/-- `track_press`. -/
def trackPress (held : HeldKeys) (usage : HidUsage) (now : Instant) : HeldKeys :=
  if held.any (·.1 == usage) then
    held.map fun entry => if entry.1 = usage then (entry.1, entry.2.1, now) else entry
  else (usage, now, now) :: held

/-- `track_release`. -/
def trackRelease (held : HeldKeys) (usage : HidUsage) : HeldKeys :=
  held.filter (·.1 != usage)

/-- `track_key_event`. -/
def trackKeyEvent (held : HeldKeys) (now : Instant) : Option InputEvent → HeldKeys
  | some (.key event) =>
    if event.pressed then trackPress held event.usage now else trackRelease held event.usage
  | _ => held

/-- `is_modifier_usage`. -/
def isModifierUsage (usage : HidUsage) : Bool := 0xe0 ≤ usage && usage ≤ 0xe7

def repeatInitialDelayMs : ℕ := 500
def repeatIntervalMs : ℕ := 33

/-- One entry of the loop of `due_repeat`. -/
def dueStep (now : Instant) (best : Option (HidUsage × Instant))
    (entry : HidUsage × Instant × Instant) : Option (HidUsage × Instant) :=
  if isModifierUsage entry.1 then best
  else if now - entry.2.1 < repeatInitialDelayMs then best
  else if now - entry.2.2 < repeatIntervalMs then best
  else if best.all (fun newest => newest.2 < entry.2.1) then some (entry.1, entry.2.1)
  else best

/-- `due_repeat`, over the entries in the order the map yields them. -/
def dueRepeat (held : HeldKeys) (now : Instant) : Option HidUsage :=
  (held.foldl (dueStep now) none).map (·.1)

/-- `take_due_repeat`. -/
def takeDueRepeat (s : Capture) (now : Instant) : Capture × Option InputEvent :=
  match dueRepeat s.heldKeys now with
  | some usage =>
    ({ s with heldKeys :=
        s.heldKeys.map fun entry => if entry.1 = usage then (entry.1, entry.2.1, now) else entry },
      some (.key ⟨usage, true, true⟩))
  | none => (s, none)

/-- The capture drops the event: the grab it holds reads the other family, or the event is of
a device of its own. -/
def dropped (s : Capture) (isOwnSource : DeviceId → Bool) : XEvent → Bool
  | .raw sourceid _ _ => s.grabKind = .core || isOwnSource sourceid
  | .core _ _ => s.grabKind ≠ .core

/-- `translate`, of keys and buttons. -/
def translate (s : Capture) (isOwnSource : DeviceId → Bool) (now : Instant) :
    XEvent → Capture × Option InputEvent
  | .raw sourceid detail pressed =>
    if s.grabKind = .core then (s, none)
    else if isOwnSource sourceid then (s, none)
    else ({ s with heldKeys := trackKeyEvent s.heldKeys now (detail.event pressed) },
      detail.event pressed)
  | .core detail pressed =>
    if s.grabKind ≠ .core then (s, none)
    else ({ s with heldKeys := trackKeyEvent s.heldKeys now (detail.event pressed) },
      detail.event pressed)

/-- `set_exclusive`; `xiGrab` and `coreGrab` are the server's answers to the grabs. -/
def setExclusive (s : Capture) (exclusive xiGrab coreGrab : Bool) : Capture :=
  if exclusive = s.exclusive then s
  else if exclusive then
    if xiGrab then { s with grabKind := .xi, exclusive := true }
    else if coreGrab then { s with grabKind := .core, exclusive := true }
    else { s with grabKind := .none }
  else { s with grabKind := .none, exclusive := false }

/-! ### The server and its queue -/

/-- The capture, what waits in its queue, what is held on the devices and what the events it
put out leave held. -/
structure World where
  capture : Capture
  queue : List XEvent
  physical : Finset Detail
  emitted : Finset KeyOrButton
  deriving DecidableEq

inductive Op
  | physical (sourceid : DeviceId) (detail : Detail) (pressed : Bool)
  | setExclusive (exclusive xiGrab coreGrab : Bool)
  | takeRepeat (now : Instant)
  | read (isOwnSource : DeviceId → Bool) (now : Instant)

def World.step (w : World) : Op → World × Option InputEvent
  | .physical sourceid detail pressed =>
    ({ w with
        queue := w.queue ++
          [if w.capture.grabKind = .core then .core detail pressed
            else .raw sourceid detail pressed]
        physical := Held.turn w.physical (detail, pressed) }, none)
  | .setExclusive exclusive xiGrab coreGrab =>
    ({ w with capture := setExclusive w.capture exclusive xiGrab coreGrab }, none)
  | .takeRepeat now =>
    let (capture, event) := takeDueRepeat w.capture now
    ({ w with capture }, event)
  | .read isOwnSource now =>
    match w.queue with
    | [] => (w, none)
    | event :: rest =>
      let (capture, event) := translate w.capture isOwnSource now event
      ({ w with capture, queue := rest, emitted := event.elim w.emitted (feel w.emitted) }, event)

def start : World := ⟨⟨false, .none, []⟩, [], ∅, ∅⟩

/-- The world behind the steps of a run. -/
abbrev after (ops : List Op) : World := Trace.final World.step start ops

/-! ### Details and controls -/

def XEvent.detail : XEvent → Detail
  | .raw _ detail _ => detail
  | .core detail _ => detail

def XEvent.pressed : XEvent → Bool
  | .raw _ _ pressed => pressed
  | .core _ pressed => pressed

/-- The key or button an event is about. -/
def XEvent.transition (event : XEvent) : Option (KeyOrButton × Bool) :=
  event.detail.control.map fun c => (c, event.pressed)

lemma event_transition (detail : Detail) (pressed : Bool) :
    (detail.event pressed).bind InputEvent.transition =
      detail.control.map fun c => (c, pressed) := by
  cases detail with
  | key keycode =>
    simp only [Detail.event, keyEvent, Detail.control]
    split_ifs
    · rcases hidFromEvdev (keycode - 8).toUInt16 with _ | usage <;> rfl
    · rfl
  | button detail =>
    simp only [Detail.event, buttonEvent, Detail.control]
    split <;> simp_all [InputEvent.transition]

lemma key_inj {k k' : UInt8} {c : KeyOrButton} (h : (Detail.key k).control = some c)
    (h' : (Detail.key k').control = some c) : k = k' := by
  simp only [Detail.control] at h h'
  split_ifs at h h' with hk hk'
  obtain ⟨usage, hu, rfl⟩ := Option.map_eq_some_iff.mp h
  obtain ⟨usage', hu', heq⟩ := Option.map_eq_some_iff.mp h'
  obtain rfl := KeyOrButton.key.inj heq
  have hcode := UInt8.toUInt16_inj.mp (hidFromEvdev_inj hu hu')
  simpa using hcode

lemma button_inj {b b' : UInt8} {c : KeyOrButton} (h : (Detail.button b).control = some c)
    (h' : (Detail.button b').control = some c) : b = b' := by
  rw [← UInt8.toNat_inj]
  simp only [Detail.control] at h h'
  split at h <;> cases h <;> split at h' <;> cases h' <;> simp_all

/-- A key or button names its detail. -/
lemma control_inj {d d' : Detail} {c : KeyOrButton} (h : d.control = some c)
    (h' : d'.control = some c) : d = d' := by
  cases d with
  | key k =>
    cases d' with
    | key k' => rw [key_inj h h']
    | button b' =>
      simp only [Detail.control] at h h'
      split_ifs at h
      obtain ⟨usage, -, rfl⟩ := Option.map_eq_some_iff.mp h
      split at h' <;> cases h'
  | button b =>
    cases d' with
    | button b' => rw [button_inj h h']
    | key k' =>
      simp only [Detail.control] at h h'
      split_ifs at h'
      obtain ⟨usage, -, rfl⟩ := Option.map_eq_some_iff.mp h'
      split at h <;> cases h

/-- The keys and buttons of some details. -/
def controls (details : Finset Detail) : Finset KeyOrButton :=
  details.filterMap Detail.control fun _ _ _ h h' => control_inj h h'

lemma mem_controls {details : Finset Detail} {c : KeyOrButton} :
    c ∈ controls details ↔ ∃ d ∈ details, d.control = some c :=
  Finset.mem_filterMap _

lemma controls_turn {details : Finset Detail} {d : Detail} {c : KeyOrButton} {on : Bool}
    (h : d.control = some c) :
    controls (Held.turn details (d, on)) = Held.turn (controls details) (c, on) := by
  ext x
  simp only [mem_controls, Held.mem_turn]
  constructor
  · rintro ⟨e, ⟨rfl, hon⟩ | ⟨hne, he⟩, hx⟩
    · exact Or.inl ⟨Option.some.inj (hx.symm.trans h), hon⟩
    · exact Or.inr ⟨fun heq => hne (control_inj (hx.trans (congrArg some heq)) h), e, he, hx⟩
  · rintro (⟨rfl, hon⟩ | ⟨hne, e, he, hx⟩)
    · exact ⟨d, Or.inl ⟨rfl, hon⟩, h⟩
    · refine ⟨e, Or.inr ⟨?_, he⟩, hx⟩
      rintro rfl
      exact hne (Option.some.inj (hx.symm.trans h))

lemma controls_turn_none {details : Finset Detail} {d : Detail} {on : Bool}
    (h : d.control = none) : controls (Held.turn details (d, on)) = controls details := by
  ext x
  simp only [mem_controls, Held.mem_turn]
  constructor
  · rintro ⟨e, ⟨rfl, -⟩ | ⟨-, he⟩, hx⟩
    · exact absurd (h.symm.trans hx) (by simp)
    · exact ⟨e, he, hx⟩
  · rintro ⟨e, he, hx⟩
    refine ⟨e, Or.inr ⟨?_, he⟩, hx⟩
    rintro rfl
    exact absurd (h.symm.trans hx) (by simp)

/-- What is held behind the event of a detail. -/
lemma feel_event (held : Finset KeyOrButton) (detail : Detail) (pressed : Bool) :
    (detail.event pressed).elim held (feel held) =
      detail.control.elim held fun c => Held.turn held (c, pressed) := by
  have h := event_transition detail pressed
  rcases hevent : detail.event pressed with _ | event
  · rw [hevent] at h
    rcases hcontrol : detail.control with _ | c
    · rfl
    · rw [hcontrol] at h
      cases h
  · rw [hevent] at h
    simp only [Option.bind_some] at h
    simp only [Option.elim_some, feel, h]
    rcases detail.control with _ | c <;> rfl

/-! ### Keys that repeat -/

/-- The keys of `held_keys`. -/
def HeldKeys.usages (held : HeldKeys) : List HidUsage := held.map (·.1)

lemma mem_usages_touch {held : HeldKeys} {usage u : HidUsage} {now : Instant} :
    u ∈ HeldKeys.usages
        (held.map fun entry => if entry.1 = usage then (entry.1, entry.2.1, now) else entry) ↔
      u ∈ held.usages := by
  have hfst : ((·.1) ∘ fun entry : HidUsage × Instant × Instant =>
      if entry.1 = usage then (entry.1, entry.2.1, now) else entry) = (·.1) := by
    funext entry
    simp only [Function.comp_apply]
    split_ifs <;> rfl
  rw [HeldKeys.usages, HeldKeys.usages, List.map_map, hfst]

lemma mem_usages_trackPress {held : HeldKeys} {usage u : HidUsage} {now : Instant} :
    u ∈ HeldKeys.usages (trackPress held usage now) ↔ u = usage ∨ u ∈ held.usages := by
  rw [trackPress]
  split_ifs with h
  · rw [mem_usages_touch]
    refine (or_iff_right_of_imp ?_).symm
    rintro rfl
    obtain ⟨entry, hentry, heq⟩ := List.any_eq_true.mp h
    exact List.mem_map.mpr ⟨entry, hentry, beq_iff_eq.mp heq⟩
  · exact List.mem_cons

lemma mem_usages_trackRelease {held : HeldKeys} {usage u : HidUsage} :
    u ∈ HeldKeys.usages (trackRelease held usage) ↔ u ≠ usage ∧ u ∈ held.usages := by
  simp only [HeldKeys.usages, trackRelease, List.mem_map, List.mem_filter, bne_iff_ne]
  constructor
  · rintro ⟨entry, ⟨hentry, hne⟩, rfl⟩
    exact ⟨hne, entry, hentry, rfl⟩
  · rintro ⟨hne, entry, hentry, rfl⟩
    exact ⟨entry, ⟨hentry, hne⟩, rfl⟩

/-- `held_keys` holds the keys among what is held. -/
def Tracks (held : HeldKeys) (emitted : Finset KeyOrButton) : Prop :=
  ∀ usage, usage ∈ held.usages ↔ .key usage ∈ emitted

lemma Tracks.event {held : HeldKeys} {emitted : Finset KeyOrButton} (h : Tracks held emitted)
    (now : Instant) (event : Option InputEvent) :
    Tracks (trackKeyEvent held now event) (event.elim emitted (feel emitted)) := by
  intro usage
  rcases event with _ | event
  · exact h usage
  · cases event with
    | key event =>
      obtain ⟨u, pressed, repeated⟩ := event
      cases pressed with
      | true => simp [trackKeyEvent, feel, InputEvent.transition, mem_usages_trackPress, h usage]
      | false =>
        simp [trackKeyEvent, feel, InputEvent.transition, mem_usages_trackRelease, h usage]
    | mouseButton button pressed =>
      simp [trackKeyEvent, feel, InputEvent.transition, Held.mem_turn, h usage]
    | _ => exact h usage

/-- A repeat is due only of a key in `held_keys`. -/
lemma dueRepeat_mem {held : HeldKeys} {now : Instant} {usage : HidUsage}
    (h : dueRepeat held now = some usage) : usage ∈ held.usages := by
  have hbest : ∀ best ∈ held.foldl (dueStep now) none, best.1 ∈ held.usages := by
    have hbase : ∀ best ∈ (none : Option (HidUsage × Instant)), best.1 ∈ held.usages := by simp
    refine List.foldlRecOn (motive := fun b => ∀ best ∈ b, best.1 ∈ held.usages) held
      (dueStep now) hbase ?_
    intro best hbest entry hentry
    unfold dueStep
    split_ifs
    · exact hbest
    · exact hbest
    · exact hbest
    · rintro newest hnewest
      obtain rfl := Option.some.inj hnewest
      exact List.mem_map.mpr ⟨entry, hentry, rfl⟩
    · exact hbest
  obtain ⟨best, hfold, rfl⟩ := Option.map_eq_some_iff.mp h
  exact hbest best hfold

/-! ### What a step does -/

/-- The transitions that wait in the queue. -/
def World.pending (w : World) : List (KeyOrButton × Bool) := w.queue.filterMap XEvent.transition

/-- The event is dropped though it is the last word on its control and says what was not said. -/
def Loses (w : World) (op : Op) : Prop :=
  ∃ isOwnSource now event rest c on, op = .read isOwnSource now ∧ w.queue = event :: rest ∧
    dropped w.capture isOwnSource event = true ∧ event.transition = some (c, on) ∧
    ¬(c ∈ w.emitted ↔ on = true) ∧ ∀ e ∈ rest.filterMap XEvent.transition, e.1 ≠ c

/-- What was put out and what waits come to what is held, and `held_keys` follows what was put
out. -/
structure Sound (w : World) : Prop where
  replay : Held.after w.emitted w.pending = controls w.physical
  tracks : Tracks w.capture.heldKeys w.emitted

lemma translate_dropped {s : Capture} {isOwnSource : DeviceId → Bool} {now : Instant}
    {event : XEvent} (h : dropped s isOwnSource event = true) :
    translate s isOwnSource now event = (s, none) := by
  cases event with
  | raw sourceid detail pressed =>
    simp only [dropped, Bool.or_eq_true, decide_eq_true_eq] at h
    rw [translate]
    rcases h with h | h
    · rw [if_pos h]
    · rw [if_pos h, ite_self]
  | core detail pressed =>
    exact if_pos (of_decide_eq_true h)

lemma translate_read {s : Capture} {isOwnSource : DeviceId → Bool} {now : Instant}
    {event : XEvent} (h : dropped s isOwnSource event = false) :
    translate s isOwnSource now event =
      ({ s with heldKeys := trackKeyEvent s.heldKeys now (event.detail.event event.pressed) },
        event.detail.event event.pressed) := by
  cases event with
  | raw sourceid detail pressed =>
    simp only [dropped, Bool.or_eq_false_iff, decide_eq_false_iff_not] at h
    rw [translate, if_neg h.1, if_neg (by simp [h.2])]
    rfl
  | core detail pressed =>
    exact if_neg (of_decide_eq_false h)

lemma Sound.physical {w : World} (h : Sound w) (sourceid : DeviceId) (d : Detail) (on : Bool) :
    Sound (w.step (.physical sourceid d on)).1 := by
  refine ⟨?_, h.tracks⟩
  have htransition : (if w.capture.grabKind = .core then XEvent.core d on
      else .raw sourceid d on).transition = d.control.map fun c => (c, on) := by
    split_ifs <;> rfl
  simp only [World.step, World.pending, List.filterMap_append, Held.after_append]
  rw [show w.queue.filterMap XEvent.transition = w.pending from rfl, h.replay,
    List.filterMap_cons, htransition]
  rcases hcontrol : d.control with _ | c
  · rw [controls_turn_none hcontrol]
    rfl
  · rw [controls_turn hcontrol]
    rfl

lemma setExclusive_heldKeys (s : Capture) (exclusive xiGrab coreGrab : Bool) :
    (setExclusive s exclusive xiGrab coreGrab).heldKeys = s.heldKeys := by
  unfold setExclusive
  split_ifs <;> rfl

lemma Sound.setExclusive {w : World} (h : Sound w) (exclusive xiGrab coreGrab : Bool) :
    Sound (w.step (.setExclusive exclusive xiGrab coreGrab)).1 := by
  refine ⟨h.replay, ?_⟩
  simp only [World.step, setExclusive_heldKeys]
  exact h.tracks

lemma Sound.takeRepeat {w : World} (h : Sound w) (now : Instant) :
    Sound (w.step (.takeRepeat now)).1 := by
  refine ⟨h.replay, ?_⟩
  simp only [World.step, takeDueRepeat]
  rcases dueRepeat w.capture.heldKeys now with _ | usage
  · exact h.tracks
  · exact fun u => mem_usages_touch.trans (h.tracks u)

lemma step_read {w : World} {isOwnSource : DeviceId → Bool} {now : Instant} {event : XEvent}
    {rest : List XEvent} (h : w.queue = event :: rest) :
    (w.step (.read isOwnSource now)).1 =
      { w with
        capture := (translate w.capture isOwnSource now event).1
        queue := rest
        emitted :=
          (translate w.capture isOwnSource now event).2.elim w.emitted (feel w.emitted) } := by
  simp only [World.step, h]

lemma pending_cons {w : World} {event : XEvent} {rest : List XEvent} (h : w.queue = event :: rest) :
    w.pending = event.transition.toList ++ rest.filterMap XEvent.transition := by
  rw [World.pending, h, List.filterMap_cons]
  rcases event.transition with _ | e <;> rfl

lemma Sound.read {w : World} (h : Sound w) {isOwnSource : DeviceId → Bool} {now : Instant}
    (hkeep : ¬Loses w (.read isOwnSource now)) : Sound (w.step (.read isOwnSource now)).1 := by
  rcases hqueue : w.queue with _ | ⟨event, rest⟩
  · simp only [World.step, hqueue]
    exact h
  have hreplay := h.replay
  rw [pending_cons hqueue, Held.after_append] at hreplay
  rw [step_read hqueue]
  rcases hdrop : dropped w.capture isOwnSource event with _ | _
  · rw [translate_read hdrop]
    refine ⟨?_, h.tracks.event now _⟩
    rw [← hreplay, World.pending, feel_event]
    simp only [XEvent.transition]
    rcases event.detail.control with _ | c <;> rfl
  · rw [translate_dropped hdrop]
    refine ⟨?_, h.tracks⟩
    rw [← hreplay]
    rcases htransition : event.transition with _ | ⟨c, on⟩
    · rfl
    · refine (Held.after_cons_of_idle ?_).symm
      by_contra hidle
      obtain ⟨hlast, hsays⟩ := not_or.mp hidle
      exact hkeep ⟨isOwnSource, now, event, rest, c, on, rfl, hqueue, hdrop, htransition, hsays,
        fun e he hc => hlast ⟨e, he, hc⟩⟩

lemma Sound.step {w : World} (h : Sound w) {op : Op} (hkeep : ¬Loses w op) :
    Sound (w.step op).1 := by
  cases op with
  | physical sourceid d on => exact h.physical sourceid d on
  | setExclusive exclusive xiGrab coreGrab => exact h.setExclusive exclusive xiGrab coreGrab
  | takeRepeat now => exact h.takeRepeat now
  | read isOwnSource now => exact h.read hkeep

/-! ### Runs -/

/-- No event is lost on the way. -/
def LosesNothing (ops : List Op) : Prop :=
  Trace.Each (fun before op => ¬Loses (after before) op) ops

lemma sound_after {ops : List Op} (h : LosesNothing ops) : Sound (after ops) := by
  refine Trace.invariant (I := fun _ w => Sound w) ?_ (fun m op hm hkeep => hm.step hkeep) h
  exact ⟨rfl, fun usage => by simp [start, HeldKeys.usages]⟩

/-- What the events put out leave held is what is held, `held_keys` holds the keys of it, and
no repeat is due of another. -/
structure Faithful (w : World) : Prop where
  emitted : w.emitted = controls w.physical
  heldKeys : Tracks w.capture.heldKeys (controls w.physical)
  repeats : ∀ now usage, dueRepeat w.capture.heldKeys now = some usage →
    .key usage ∈ controls w.physical

lemma Sound.faithful {w : World} (h : Sound w) (hqueue : w.queue = []) : Faithful w := by
  have hemitted : w.emitted = controls w.physical := by
    have hreplay := h.replay
    rwa [World.pending, hqueue] at hreplay
  have htracks : Tracks w.capture.heldKeys (controls w.physical) := hemitted ▸ h.tracks
  exact ⟨hemitted, htracks, fun now usage hdue => (htracks usage).mp (dueRepeat_mem hdue)⟩

/-! ### What a loss leaves behind -/

def Op.IsRead (op : Op) : Prop := ∃ isOwnSource now, op = .read isOwnSource now

/-- A beginning of the run with its queue read on, as far as it goes. -/
def Drains (ops run : List Op) : Prop :=
  ∃ m reads, m <+: ops ∧ (∀ op ∈ reads, op.IsRead) ∧ run = m ++ reads

lemma Drains.of_prefix {ops run run' : List Op} (h : Drains ops run) (hrun : run' <+: run) :
    Drains ops run' := by
  obtain ⟨m, reads, hm, hreads, rfl⟩ := h
  rcases List.prefix_or_prefix_of_prefix hrun (List.prefix_append m reads) with hle | ⟨r, rfl⟩
  · exact ⟨run', [], hle.trans hm, by simp, by simp⟩
  · have hr := (List.prefix_append_right_inj m).mp hrun
    exact ⟨m, r, hm, fun op hop => hreads op (hr.subset hop), rfl⟩

lemma Drains.read {ops run reads : List Op} (h : Drains ops run)
    (hreads : ∀ op ∈ reads, op.IsRead) : Drains ops (run ++ reads) := by
  obtain ⟨m, before, hm, hbefore, rfl⟩ := h
  refine ⟨m, before ++ reads, hm, fun op hop => ?_, List.append_assoc _ _ _⟩
  exact (List.mem_append.mp hop).elim (hbefore op) (hreads op)

/-- Nothing waits that could still say of `c` what is not said. -/
structure Stranded (c : KeyOrButton) (w : World) : Prop where
  wrong : ¬(c ∈ w.emitted ↔ c ∈ controls w.physical)
  quiet : ∀ e ∈ w.pending, e.1 ≠ c

lemma Sound.stranded {w : World} (h : Sound w) {op : Op} (hloses : Loses w op) :
    ∃ c, Stranded c (w.step op).1 := by
  obtain ⟨isOwnSource, now, event, rest, c, on, rfl, hqueue, hdrop, htransition, hsays, hlast⟩ :=
    hloses
  have hreplay := h.replay
  rw [pending_cons hqueue, htransition] at hreplay
  refine ⟨c, ?_, ?_⟩
  · rw [step_read hqueue, translate_dropped hdrop]
    have hphysical : c ∈ controls w.physical ↔ on = true := by
      rw [← hreplay, Option.toList_some, List.singleton_append, Held.after_cons,
        Held.mem_after_of_untouched hlast, Held.mem_turn_self]
    rwa [hphysical]
  · rw [step_read hqueue]
    exact hlast

/-- A read puts out nothing about a control no event waits of. -/
lemma Stranded.read {c : KeyOrButton} {w : World} (h : Stranded c w) {op : Op}
    (hread : op.IsRead) : Stranded c (w.step op).1 := by
  obtain ⟨isOwnSource, now, rfl⟩ := hread
  rcases hqueue : w.queue with _ | ⟨event, rest⟩
  · simp only [World.step, hqueue]
    exact h
  have hquiet := h.quiet
  rw [pending_cons hqueue, List.forall_mem_append] at hquiet
  rw [step_read hqueue]
  refine ⟨?_, hquiet.2⟩
  rcases hdrop : dropped w.capture isOwnSource event with _ | _
  · rw [translate_read hdrop, feel_event]
    have hother := hquiet.1
    simp only [XEvent.transition] at hother
    rcases hcontrol : event.detail.control with _ | d
    · exact h.wrong
    · rw [hcontrol] at hother
      have hne : d ≠ c := hother (d, event.pressed) List.mem_cons_self
      rw [Option.elim_some, Held.mem_turn_of_ne (Ne.symm hne)]
      exact h.wrong
  · rw [translate_dropped hdrop]
    exact h.wrong

lemma Stranded.reads {c : KeyOrButton} {w : World} (h : Stranded c w) {reads : List Op}
    (hreads : ∀ op ∈ reads, op.IsRead) : Stranded c (Trace.final World.step w reads) := by
  induction reads generalizing w with
  | nil => exact h
  | cons op reads ih =>
    obtain ⟨hop, hreads⟩ := List.forall_mem_cons.mp hreads
    exact ih (h.read hop) hreads

lemma queue_reads {w : World} (isOwnSource : DeviceId → Bool) (now : Instant) (n : ℕ) :
    (Trace.final World.step w (List.replicate n (.read isOwnSource now))).queue =
      w.queue.drop n := by
  induction n generalizing w with
  | zero => rfl
  | succ n ih =>
    rw [List.replicate_succ, Trace.final_cons, ih]
    rcases hqueue : w.queue with _ | ⟨event, rest⟩
    · simp [World.step, hqueue]
    · rw [step_read hqueue, List.drop_succ_cons]

/-- A is down when a drive begins, and up before the capture reads on. -/
def releasedAcross : List Op :=
  [.physical 2 (.key 38) true, .read (fun _ => false) 0, .physical 2 (.key 38) false,
    .setExclusive true false true, .read (fun _ => false) 100]

end TheKvm.X11

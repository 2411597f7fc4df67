import TheKvm.Daemon.Captured
import TheKvm.Lib.Latch

/-!
The barrier of a crossing, and what the receiver holds behind it.

A crossing sends a snapshot of what is held. Of the events still queued the drive loop drops those
the snapshot accounts for, but never a release.
-/

namespace TheKvm

/-- `event_passes_barrier`. -/
def eventPassesBarrier (eventId discarded : UInt64) (sessionBarrier : Option UInt64)
    (isRelease : Bool) : Bool :=
  isRelease || (discarded < eventId && sessionBarrier.all fun barrier => barrier < eventId)

/-! ### Controls -/

/-- A key or a button. -/
inductive Control
  | key (usage : HidUsage)
  | button (button : MouseButton)
  deriving DecidableEq

/-- The control an event presses or releases. -/
def InputEvent.control : InputEvent → Option (Control × Bool)
  | .key event => some (.key event.usage, event.pressed)
  | .mouseButton button pressed => some (.button button, pressed)
  | _ => none

def CapturedEvent.control (captured : CapturedEvent) : Option (Control × Bool) :=
  captured.event.control

lemma InputEvent.isRelease_of_control {event : InputEvent} {c : Control}
    (h : event.control = some (c, false)) : event.isRelease = true := by
  cases event with
  | key event =>
    obtain ⟨-, hpressed⟩ := Prod.mk.inj (Option.some.inj h)
    rw [isRelease, hpressed]
    rfl
  | mouseButton button pressed =>
    obtain ⟨-, rfl⟩ := Prod.mk.inj (Option.some.inj h)
    rfl
  | _ => cases h

namespace Held

def holds (h : Held) : Control → Prop
  | .key usage => usage ∈ h.keys
  | .button button => button ∈ h.buttons

lemma holds_injective : Function.Injective holds := by
  intro h h' heq
  ext a
  · exact iff_of_eq (congrFun heq (.key a))
  · exact iff_of_eq (congrFun heq (.button a))

lemma holds_apply (h : Held) (event : InputEvent) :
    (h.apply event).holds = Latch.apply InputEvent.control h.holds event := by
  funext c
  rw [eq_iff_iff, Latch.apply_iff]
  cases event with
  | key event =>
    obtain ⟨usage, pressed, repeated⟩ := event
    cases c with
    | key u =>
      cases pressed
      · simp [apply, holds, InputEvent.control, eq_comm, and_comm]
      · simp [apply, holds, InputEvent.control, eq_comm]
    | button b => simp [apply, holds, InputEvent.control]
  | mouseButton button pressed =>
    cases c with
    | key u => simp [apply, holds, InputEvent.control]
    | button b =>
      cases pressed
      · simp [apply, holds, InputEvent.control, eq_comm, and_comm]
      · simp [apply, holds, InputEvent.control, eq_comm]
  | _ => simp [apply, InputEvent.control]

end Held

namespace CapturedState

/-- Held controls are latches. -/
lemma holds_replay (h : Held) (events : List CapturedEvent) :
    (replay h events).holds = Latch.run CapturedEvent.control h.holds events := by
  induction events generalizing h with
  | nil => rfl
  | cons captured events ih =>
    have hcons : replay h (captured :: events) = replay (h.apply captured.event) events := rfl
    rw [hcons, ih, Held.holds_apply]
    rfl

/-- Events that concern no control may be left out. -/
lemma replay_filter_control (h : Held) (events : List CapturedEvent) :
    replay h (events.filter fun captured => captured.control.isSome) = replay h events := by
  apply Held.holds_injective
  rw [holds_replay, holds_replay, Latch.run_filter_iff]
  · rintro c ⟨l, e, r, hsplit, he, hr⟩
    exact Or.inl ⟨l, e, r, hsplit, by rw [he]; rfl, he, hr⟩
  · intro c x hx
    rw [hx]
    rfl

/-- Events may be folded twice. -/
lemma replay_replay (h : Held) (events : List CapturedEvent) :
    replay (replay h events) events = replay h events := by
  apply Held.holds_injective
  rw [holds_replay, holds_replay, Latch.run_run]

end CapturedState

/-! ### A crossing -/

/-- How the drive is opened. -/
inductive CrossingPath
  /-- a motion pushes the cursor over an edge -/
  | push (trigger : CapturedEvent)
  /-- another peer hands the cursor on -/
  | handoff

open CapturedState in
structure Crossing where
  /-- The physical events up to the snapshot. -/
  past : List (InputEvent × ℕ)
  later : List (InputEvent × ℕ)
  /-- How many key and button events the drive loop has taken from its queue. -/
  taken : ℕ
  /-- The physical events up to the teardown of the drive before. -/
  torn : List (InputEvent × ℕ)
  torn_le : torn <+: past
  path : CrossingPath
  trigger_mem : ∀ trigger, path = .push trigger → trigger ∈ returned default past

namespace Crossing

open CapturedState

def snapshot (c : Crossing) : CaptureSnapshot := (Trace.final step default c.past).snapshot

/-- `discarded_event_barrier`. -/
def discarded (c : Crossing) : UInt64 := (Trace.final step default c.torn).snapshot.lastEventId

/-- `event_barrier`. -/
def eventBarrier (c : Crossing) : UInt64 :=
  match c.path with
  | .push trigger => trigger.eventId
  | .handoff => c.snapshot.lastEventId

def passes (c : Crossing) (captured : CapturedEvent) : Bool :=
  eventPassesBarrier captured.eventId c.discarded (some c.eventBarrier) captured.event.isRelease

/-- The key and button events still queued. -/
def queued (c : Crossing) : List CapturedEvent :=
  ((returned default c.past).filter fun captured => captured.control.isSome).drop c.taken

/-- What the drive loop takes after the snapshot. -/
def coming (c : Crossing) : List CapturedEvent :=
  c.queued ++ returned (Trace.final step default c.past) c.later

/-- What the receiver holds when it has taken all that passes. -/
def received (c : Crossing) : Held :=
  replay (.ofInputState c.snapshot.state) (c.coming.filter c.passes)

/-- In the end the receiver holds what the sender holds. -/
def Converges (c : Crossing) : Prop :=
  c.received = (Trace.final step default (c.past ++ c.later)).held

/-- A control that comes to be pressed and is not released behind that has a press that passes and
is not released behind, or it is held in the snapshot and not released at all. -/
def Spared (c : Crossing) : Prop :=
  ∀ control l press r, c.coming = l ++ press :: r → press.control = some (control, true) →
    (∀ captured ∈ r, captured.control ≠ some (control, false)) →
    (∃ l' press' r', c.coming = l' ++ press' :: r' ∧ c.passes press' = true ∧
        press'.control = some (control, true) ∧
        ∀ captured ∈ r', captured.control ≠ some (control, false)) ∨
      (Held.ofInputState c.snapshot.state).holds control ∧
        ∀ captured ∈ c.coming, captured.control ≠ some (control, false)

/-- The queue holds what the snapshot already counts. -/
lemma replay_queued (c : Crossing) :
    replay (Trace.final step default c.past).held c.queued =
      (Trace.final step default c.past).held := by
  have hheld : (Trace.final step default c.past).held =
      replay (replay Held.empty (((returned default c.past).filter
        fun captured => captured.control.isSome).take c.taken)) c.queued := by
    rw [queued, ← replay_append, List.take_append_drop, replay_filter_control]
    exact (replay_returned default c.past).symm
  rw [hheld, replay_replay]

/-- All that comes, taken on top of the snapshot, makes up what the sender holds. -/
lemma replay_coming (c : Crossing) :
    replay (.ofInputState c.snapshot.state) c.coming =
      (Trace.final step default (c.past ++ c.later)).held := by
  rw [snapshot, CapturedState.snapshot, Held.ofInputState_toInputState, coming, replay_append,
    replay_queued, replay_returned, ← Trace.final_append]

/-- **Crossings converge** exactly if the barrier spares a press of each control that is pressed
among the queued and later events. -/
theorem converges_iff_spared (c : Crossing) : c.Converges ↔ c.Spared := by
  have hclear : ∀ control captured, CapturedEvent.control captured = some (control, false) →
      c.passes captured = true := by
    intro control captured h
    rw [passes, eventPassesBarrier, InputEvent.isRelease_of_control h, Bool.true_or]
  rw [Converges, ← replay_coming, received, ← Held.holds_injective.eq_iff, holds_replay,
    holds_replay, Latch.run_filter_iff hclear, Spared]
  refine forall_congr' fun control => ?_
  constructor
  · intro h l press r hsplit hpress hr
    exact h ⟨l, press, r, hsplit, hpress, hr⟩
  · rintro h ⟨l, press, r, hsplit, hpress, hr⟩
    exact h l press r hsplit hpress hr

/-- A key is released and pressed again while its first press is sent; another peer then hands
the cursor on. -/
def repressed : Crossing where
  past := [(.key ⟨4, true, false⟩, 0), (.key ⟨4, false, false⟩, 0), (.key ⟨4, true, false⟩, 0)]
  later := []
  taken := 1
  torn := []
  torn_le := List.nil_prefix
  path := .handoff
  trigger_mem := by
    intro trigger h
    cases h

/-- The release passes and the press does not. -/
theorem repressed_lost : ¬∀ c : Crossing, c.Converges := by
  intro h
  have hrepressed := h repressed
  rw [Converges, received, snapshot, CapturedState.snapshot,
    Held.ofInputState_toInputState] at hrepressed
  exact absurd (congrArg Held.keys hrepressed) (by decide)

end Crossing

end TheKvm

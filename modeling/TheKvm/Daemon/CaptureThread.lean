import TheKvm.Daemon.Scroll

/-!
The capture thread, between the backend and the drive.

Keys, buttons and gestures go through a channel on which the thread waits for room; motion and
wheels through one that sheds. A backend that fails is dropped and another one made. The drive
takes from both channels at its own pace, or closes them.
-/

namespace TheKvm

/-- The capacity of either channel. -/
def captureChannel : ℕ := 256

/-- A channel, with all that was ever sent on it. -/
structure CaptureChannel where
  sent : List CapturedEvent
  received : ℕ
  closed : Bool

namespace CaptureChannel

def empty : CaptureChannel := ⟨[], 0, false⟩

def queued (c : CaptureChannel) : List CapturedEvent := c.sent.drop c.received

def isFull (c : CaptureChannel) : Prop := captureChannel ≤ c.queued.length

instance (c : CaptureChannel) : Decidable c.isFull := inferInstanceAs (Decidable (_ ≤ _))

def push (c : CaptureChannel) (captured : CapturedEvent) : CaptureChannel :=
  { c with sent := c.sent ++ [captured] }

/-- The receiver's `recv`. -/
def receive (c : CaptureChannel) : CaptureChannel :=
  if c.received < c.sent.length then { c with received := c.received + 1 } else c

end CaptureChannel

/-- Where the thread is. -/
inductive CapturePlace
  | top
  /-- In `next_event`, or about to make a backend. -/
  | waiting
  /-- In `capture_send_bounded`, and whether the thread is to end after it. -/
  | sending (captured : CapturedEvent) (last : Bool)
  /-- Ended, with an event that no channel took. -/
  | done (unsent : Option CapturedEvent)

/-- What the thread has in hand. -/
def CapturePlace.hand : CapturePlace → List CapturedEvent
  | .sending captured _ => [captured]
  | .done (some captured) => [captured]
  | _ => []

def CapturePlace.isTop : CapturePlace → Bool
  | .top => true
  | _ => false

def CapturePlace.isSending : CapturePlace → Bool
  | .sending .. => true
  | _ => false

/-- An event that was let go, and the channels then. -/
structure Shed where
  captured : CapturedEvent
  priority : CaptureChannel
  motion : CaptureChannel

structure CaptureThread where
  state : CapturedState
  priority : CaptureChannel
  motion : CaptureChannel
  /-- Whether there is a backend. -/
  backend : Bool
  failures : ℕ
  exclusive : Bool
  stop : Bool
  /-- `TASK_HEARTBEAT_MS`. -/
  heartbeat : ℕ
  clock : ℕ
  place : CapturePlace
  /-- The events that were given a number. -/
  numbered : List CapturedEvent
  shed : List Shed

/-- Events for the reliable channel. -/
def InputEvent.isTransition : InputEvent → Bool
  | .key _ | .mouseButton .. | .pinch _ | .pinchEnd => true
  | _ => false

/-- `stamp_task_heartbeat`. -/
def stampTaskHeartbeat (last now : ℕ) : ℕ := if 100 ≤ now - last then now else last

/-- `task_heartbeat_stale_ms`. -/
def taskHeartbeatStaleMs (last now : ℕ) : Option ℕ := if last = 0 then none else some (now - last)

namespace CaptureThread

inductive Op
  | pass (ms : ℕ)
  /-- The drive. -/
  | stamp
  | setExclusive (enabled : Bool)
  | requestStop
  | receivePriority
  | receiveMotion
  | closePriority
  | closeMotion
  /-- The thread goes round its loop. -/
  | look
  | nextEvent (event : InputEvent) (now : ℕ)
  | fail
  | rebuild (ok : Bool)
  | retry

/-- `watchdog_release_if_task_wedged`. -/
def watchdog (t : CaptureThread) : CaptureThread :=
  if t.exclusive = false then t
  else
    match taskHeartbeatStaleMs t.heartbeat t.clock with
    | none => t
    | some staleMs => if staleMs ≤ 4000 then t else { t with exclusive := false }

def finish (t : CaptureThread) (unsent : Option CapturedEvent) : CaptureThread :=
  { t with place := .done unsent }

/-- One go of `capture_send_bounded`. -/
def send (t : CaptureThread) (captured : CapturedEvent) (last : Bool) : CaptureThread :=
  if t.priority.closed then t.finish (some captured)
  else if t.priority.isFull then
    if t.stop then t.finish (some captured)
    else { t.watchdog with place := .sending captured last }
  else
    { t with priority := t.priority.push captured, place := if last then .done none else .top }

/-- A number for an event that is not recorded. -/
def numberEvent (t : CaptureThread) (event : InputEvent) : CaptureThread × CapturedEvent :=
  let lastEventId := t.state.lastEventId + 1
  let captured : CapturedEvent := ⟨event, lastEventId⟩
  ({ t with state := { t.state with lastEventId }, numbered := t.numbered ++ [captured] }, captured)

def letGo (t : CaptureThread) (captured : CapturedEvent) : CaptureThread :=
  { t with shed := t.shed ++ [⟨captured, t.priority, t.motion⟩], place := .top }

/-- A wheel goes with the motion, or else with the keys if they have room. -/
def offerWheel (t : CaptureThread) (captured : CapturedEvent) : CaptureThread :=
  if t.motion.closed then t.finish (some captured)
  else if t.motion.isFull then
    if t.priority.closed ∨ t.priority.isFull then t.letGo captured
    else { t with priority := t.priority.push captured, place := .top }
  else { t with motion := t.motion.push captured, place := .top }

def offerMotion (t : CaptureThread) (captured : CapturedEvent) : CaptureThread :=
  if t.motion.closed then t.finish (some captured)
  else if t.motion.isFull then t.letGo captured
  else { t with motion := t.motion.push captured, place := .top }

/-- What the thread does with an event. -/
def captured (t : CaptureThread) (event : InputEvent) (now : ℕ) : CaptureThread :=
  if event.isPinch then
    let (t, captured) := t.numberEvent event
    t.send captured false
  else
    match t.state.record event now with
    | (state, none) => { t with state, place := .top }
    | (state, some captured) =>
      let t := { t with state, numbered := t.numbered ++ [captured] }
      if event.isTransition then t.send captured false
      else if event.isWheel then t.offerWheel captured
      else t.offerMotion captured

/-- A backend dies; a gesture it was in is ended for it. -/
def failed (t : CaptureThread) : CaptureThread :=
  if t.stop then t.finish none
  else
    let t := { t with failures := t.failures + 1, backend := false }
    let (t, captured) := t.numberEvent .pinchEnd
    t.send captured (20 < t.failures)

def step (t : CaptureThread) (op : Op) : CaptureThread × Unit :=
  match op with
  | .pass ms => ({ t with clock := t.clock + ms }, ())
  | .stamp => ({ t with heartbeat := stampTaskHeartbeat t.heartbeat t.clock }, ())
  | .setExclusive enabled => ({ t with exclusive := enabled }, ())
  | .requestStop => ({ t with stop := true }, ())
  | .receivePriority => ({ t with priority := t.priority.receive }, ())
  | .receiveMotion => ({ t with motion := t.motion.receive }, ())
  | .closePriority => ({ t with priority := { t.priority with closed := true } }, ())
  | .closeMotion => ({ t with motion := { t.motion with closed := true } }, ())
  | .look =>
    match t.place with
    | .top => (if t.stop then t.finish none else { t.watchdog with place := .waiting }, ())
    | _ => (t, ())
  | .nextEvent event now =>
    match t.place, t.backend with
    | .waiting, true => ({ t with failures := 0 }.captured event now, ())
    | _, _ => (t, ())
  | .fail =>
    match t.place, t.backend with
    | .waiting, true => (t.failed, ())
    | _, _ => (t, ())
  | .rebuild ok =>
    match t.place, t.backend with
    | .waiting, false =>
      if ok then ({ t with backend := true, place := .top }, ())
      else
        let t := { t with failures := t.failures + 1 }
        (if 20 < t.failures then t.finish none else { t with place := .top }, ())
    | _, _ => (t, ())
  | .retry =>
    match t.place with
    | .sending captured last => (t.send captured last, ())
    | _ => (t, ())

/-- `start_capture`, with a backend that was made. -/
def start (exclusive : Bool) (heartbeat clock : ℕ) : CaptureThread where
  state := .default
  priority := .empty
  motion := .empty
  backend := true
  failures := 0
  exclusive := exclusive
  stop := false
  heartbeat := heartbeat
  clock := clock
  place := .top
  numbered := []
  shed := []

/-- The thread after a run. -/
abbrev after (exclusive : Bool) (heartbeat clock : ℕ) (l : List Op) : CaptureThread :=
  Trace.final step (start exclusive heartbeat clock) l

/-! ### What the thread accounts for -/

/-- Every event with a number is on a channel, in hand or let go; transitions are in order, and
events are let go only by full channels. -/
structure Accounted (t : CaptureThread) (hand : List CapturedEvent) : Prop where
  conserved : t.numbered.Perm
    (t.priority.sent ++ t.motion.sent ++ hand ++ t.shed.map Shed.captured)
  transitions : (t.priority.sent ++ hand).filter (·.event.isTransition) =
    t.numbered.filter (·.event.isTransition)
  motion : t.motion.sent.Sublist t.numbered
  shed : ∀ d ∈ t.shed, d.captured.event.isTransition = false ∧ d.motion.isFull ∧
    (d.captured.event.isWheel = true → d.priority.closed = true ∨ d.priority.isFull)
  held : CapturedState.replay .empty t.numbered = t.state.held
  ids : t.numbered.map CapturedEvent.eventId =
    (List.range t.numbered.length).map fun n => UInt64.ofNat (n + 1)
  lastEventId : t.state.lastEventId = UInt64.ofNat t.numbered.length
  room : t.priority.queued.length ≤ captureChannel ∧ t.motion.queued.length ≤ captureChannel
  /-- Without a backend no gesture is open. -/
  gesture : t.backend = false →
    ((t.numbered.filter (·.event.isTransition)).getLast?).map CapturedEvent.event = some .pinchEnd

abbrev Sound (t : CaptureThread) : Prop := t.Accounted t.place.hand

variable {t : CaptureThread} {c : CapturedEvent} {hand : List CapturedEvent}

lemma queued_push (channel : CaptureChannel) (h : ¬channel.isFull) (c : CapturedEvent) :
    (channel.push c).queued.length ≤ captureChannel := by
  have hlt : channel.queued.length < captureChannel := Nat.lt_of_not_le h
  simp only [CaptureChannel.push, CaptureChannel.queued, List.length_drop,
    List.length_append, List.length_singleton] at hlt ⊢
  omega

lemma queued_receive (channel : CaptureChannel) :
    channel.receive.queued.length ≤ channel.queued.length ∧ channel.receive.sent = channel.sent := by
  unfold CaptureChannel.receive
  split_ifs
  · refine ⟨?_, rfl⟩
    simp only [CaptureChannel.queued, List.length_drop]
    omega
  · exact ⟨le_rfl, rfl⟩

/-- What the watchdog does matters to the drive only. -/
lemma watchdog_same (t : CaptureThread) : ∃ exclusive, t.watchdog = { t with exclusive } := by
  unfold watchdog
  split_ifs
  · exact ⟨t.exclusive, rfl⟩
  · split
    · exact ⟨t.exclusive, rfl⟩
    · split_ifs
      · exact ⟨t.exclusive, rfl⟩
      · exact ⟨false, rfl⟩

lemma replay_snoc (l : List CapturedEvent) (c : CapturedEvent) :
    CapturedState.replay .empty (l ++ [c]) = (CapturedState.replay .empty l).apply c.event := by
  rw [CapturedState.replay_append]
  rfl

lemma apply_of_not_transition {held : Held} {event : InputEvent}
    (h : event.isTransition = false) : held.apply event = held := by
  cases event with
  | mouseMove _ _ | wheel _ | smoothWheel _ _ => rfl
  | key _ | mouseButton _ _ | pinch _ | pinchEnd => cases h

/-- The next number. -/
lemma Accounted.numbers (h : t.Accounted []) (event : InputEvent) (state : CapturedState)
    (hid : state.lastEventId = t.state.lastEventId + 1)
    (hheld : state.held = t.state.held.apply event) {backend : Bool}
    (hbackend : backend = true ∨ event = .pinchEnd) :
    Accounted
      { t with
        state := state
        backend := backend
        numbered := t.numbered ++ [⟨event, t.state.lastEventId + 1⟩] }
      [⟨event, t.state.lastEventId + 1⟩] := by
  have hnext : t.state.lastEventId + 1 = UInt64.ofNat (t.numbered.length + 1) := by
    rw [h.lastEventId]
    simp
  refine ⟨?_, ?_, h.motion.trans (List.sublist_append_left _ _), h.shed, ?_, ?_, ?_, h.room, ?_⟩
  · have hconserved := h.conserved
    rw [List.append_nil] at hconserved
    refine (hconserved.append_right _).trans ?_
    rw [List.append_assoc, List.append_assoc _ [_]]
    exact List.perm_append_comm.append_left _
  · have htransitions := h.transitions
    rw [List.append_nil] at htransitions
    rw [List.filter_append, List.filter_append, htransitions]
  · rw [replay_snoc, h.held, hheld]
  · rw [List.map_append, h.ids, List.length_append, List.length_singleton, List.range_succ,
      List.map_append, List.map_singleton, List.map_singleton, hnext]
  · rw [hid, hnext, List.length_append, List.length_singleton]
  · rintro hnone
    rcases hbackend with hbackend | rfl
    · cases hbackend.symm.trans hnone
    · have hlast : [CapturedEvent.mk .pinchEnd (t.state.lastEventId + 1)].filter
          (·.event.isTransition) = [⟨.pinchEnd, t.state.lastEventId + 1⟩] := rfl
      rw [List.filter_append, hlast, List.getLast?_append]
      rfl

lemma Accounted.congr {t' : CaptureThread} (h : t.Accounted hand) (hstate : t'.state = t.state)
    (hpriority : t'.priority.sent = t.priority.sent) (hmotion : t'.motion.sent = t.motion.sent)
    (hnumbered : t'.numbered = t.numbered) (hshed : t'.shed = t.shed)
    (hroom : t'.priority.queued.length ≤ captureChannel ∧
      t'.motion.queued.length ≤ captureChannel)
    (hbackend : t'.backend = t.backend ∨ t'.backend = true) : t'.Accounted hand := by
  refine ⟨?_, ?_, ?_, ?_, ?_, ?_, ?_, hroom, ?_⟩
  · rw [hnumbered, hpriority, hmotion, hshed]
    exact h.conserved
  · rw [hnumbered, hpriority]
    exact h.transitions
  · rw [hnumbered, hmotion]
    exact h.motion
  · rw [hshed]
    exact h.shed
  · rw [hnumbered, hstate]
    exact h.held
  · rw [hnumbered]
    exact h.ids
  · rw [hnumbered, hstate]
    exact h.lastEventId
  · rw [hnumbered]
    intro hnone
    exact h.gesture (hbackend.resolve_right (fun h => by rw [h] at hnone; cases hnone) ▸ hnone)

/-- An event in hand goes onto the reliable channel. -/
lemma Accounted.pushed (h : t.Accounted [c]) (hroom : ¬t.priority.isFull) (place : CapturePlace)
    (hplace : place.hand = []) :
    Sound { t with priority := t.priority.push c, place := place } := by
  show Accounted _ place.hand
  rw [hplace]
  refine ⟨?_, ?_, h.motion, h.shed, h.held, h.ids, h.lastEventId,
    ⟨queued_push _ hroom c, h.room.2⟩, h.gesture⟩
  · refine h.conserved.trans ?_
    simp only [CaptureChannel.push, List.append_nil, List.append_assoc]
    exact (List.perm_append_comm_assoc _ _ _).append_left _
  · simpa only [CaptureChannel.push, List.append_nil] using h.transitions

lemma Accounted.send (h : t.Accounted [c]) (last : Bool) : (t.send c last).Sound := by
  unfold CaptureThread.send
  split_ifs with hclosed hfull hstop
  · exact h.congr rfl rfl rfl rfl rfl h.room (Or.inl rfl)
  · exact h.congr rfl rfl rfl rfl rfl h.room (Or.inl rfl)
  · obtain ⟨exclusive, hwatchdog⟩ := t.watchdog_same
    rw [hwatchdog]
    exact h.congr rfl rfl rfl rfl rfl h.room (Or.inl rfl)
  · exact h.pushed hfull (.done none) rfl
  · exact h.pushed hfull .top rfl

/-- An event that is no transition goes with the motion. -/
lemma Accounted.moved (h : t.Accounted [c]) (hc : c.event.isTransition = false)
    (hmotion : (t.motion.sent ++ [c]).Sublist t.numbered) (hroom : ¬t.motion.isFull) :
    Sound { t with motion := t.motion.push c, place := .top } := by
  refine ⟨?_, ?_, hmotion, h.shed, h.held, h.ids, h.lastEventId,
    ⟨h.room.1, queued_push _ hroom c⟩, h.gesture⟩
  · refine h.conserved.trans ?_
    simp only [CaptureChannel.push, CapturePlace.hand, List.append_nil, List.append_assoc]
    rfl
  · have htransitions := h.transitions
    rw [List.filter_append, List.filter_singleton, hc] at htransitions
    simpa only [CapturePlace.hand, List.append_nil, Bool.cond_false] using htransitions

lemma Accounted.letGo (h : t.Accounted [c]) (hc : c.event.isTransition = false)
    (hmotion : t.motion.isFull)
    (hwheel : c.event.isWheel = true → t.priority.closed = true ∨ t.priority.isFull) :
    (t.letGo c).Sound := by
  refine ⟨?_, ?_, h.motion, ?_, h.held, h.ids, h.lastEventId, h.room, h.gesture⟩
  · refine h.conserved.trans ?_
    simp only [CaptureThread.letGo, CapturePlace.hand, List.append_nil, List.append_assoc,
      List.map_append, List.map_singleton]
    exact (List.perm_append_comm.append_left _).append_left _
  · have htransitions := h.transitions
    rw [List.filter_append, List.filter_singleton, hc] at htransitions
    simpa only [CaptureThread.letGo, CapturePlace.hand, List.append_nil, Bool.cond_false]
      using htransitions
  · intro d hd
    rcases List.mem_append.mp hd with hd | hd
    · exact h.shed d hd
    · obtain rfl := List.mem_singleton.mp hd
      exact ⟨hc, hmotion, hwheel⟩

lemma Accounted.offerMotion (h : t.Accounted [c]) (hc : c.event.isTransition = false)
    (hwheel : c.event.isWheel = false) (hmotion : (t.motion.sent ++ [c]).Sublist t.numbered) :
    (t.offerMotion c).Sound := by
  unfold CaptureThread.offerMotion
  split_ifs with hclosed hfull
  · exact h.congr rfl rfl rfl rfl rfl h.room (Or.inl rfl)
  · exact h.letGo hc hfull fun hiswheel => by rw [hwheel] at hiswheel; cases hiswheel
  · exact h.moved hc hmotion hfull

lemma Accounted.offerWheel (h : t.Accounted [c]) (hc : c.event.isTransition = false)
    (hmotion : (t.motion.sent ++ [c]).Sublist t.numbered) : (t.offerWheel c).Sound := by
  unfold CaptureThread.offerWheel
  split_ifs with hclosed hfull hpriority
  · exact h.congr rfl rfl rfl rfl rfl h.room (Or.inl rfl)
  · exact h.letGo hc hfull fun _ => hpriority
  · exact h.pushed (fun hroom => hpriority (Or.inr hroom)) .top rfl
  · exact h.moved hc hmotion hfull

/-- An event that is recorded keeps its kind. -/
lemma record_kind {s s' : CapturedState} {event : InputEvent} {now : ℕ}
    (h : s.record event now = (s', some c)) :
    c.event.isTransition = event.isTransition ∧ c.event.isWheel = event.isWheel := by
  cases event with
  | key key =>
    simp only [CapturedState.record, CapturedState.emit] at h
    split_ifs at h <;> simp only [Prod.mk.injEq, Option.some.injEq, reduceCtorEq, and_false] at h <;>
      (obtain ⟨-, rfl⟩ := h; exact ⟨rfl, rfl⟩)
  | mouseButton | mouseMove | wheel | smoothWheel =>
    obtain ⟨-, hc⟩ := Prod.mk.inj h
    obtain rfl := Option.some.inj hc
    exact ⟨rfl, rfl⟩
  | pinch | pinchEnd => cases h

/-- The thread takes an event from the backend. -/
lemma Accounted.captured (h : t.Accounted []) (hbackend : t.backend = true) (event : InputEvent)
    (now : ℕ) : (t.captured event now).Sound := by
  unfold CaptureThread.captured
  by_cases hpinch : event.isPinch
  · rw [if_pos hpinch]
    have hheld : CapturedState.held { t.state with lastEventId := t.state.lastEventId + 1 } =
        t.state.held.apply event := by
      cases event with
      | pinch | pinchEnd => rfl
      | _ => cases hpinch
    exact (h.numbers event _ rfl hheld (Or.inl hbackend)).send false
  · rw [if_neg hpinch]
    rcases hrecord : t.state.record event now with ⟨state, _ | c⟩ <;>
      rcases t.state.record_cases event now with ⟨sent, hsent, hid, hheld⟩ | ⟨hsent, hid, hheld⟩ <;>
      rw [hrecord] at hsent hid hheld
    · cases hsent
    · exact { h with held := h.held.trans hheld.symm, lastEventId := hid.trans h.lastEventId }
    · obtain rfl := Option.some.inj hsent
      obtain ⟨hkind, hwheel⟩ := record_kind hrecord
      have hnumbered := h.numbers sent state hid hheld (Or.inl hbackend)
      have hmotion := h.motion.append
        (List.Sublist.refl [(⟨sent, t.state.lastEventId + 1⟩ : CapturedEvent)])
      dsimp only
      split_ifs with htransition hiswheel
      · exact hnumbered.send false
      · exact hnumbered.offerWheel (hkind.trans (Bool.eq_false_iff.mpr htransition)) hmotion
      · exact hnumbered.offerMotion (hkind.trans (Bool.eq_false_iff.mpr htransition))
          (hwheel.trans (Bool.eq_false_iff.mpr hiswheel)) hmotion
    · cases hsent

lemma Accounted.failed (h : t.Accounted []) : t.failed.Sound := by
  unfold CaptureThread.failed
  split_ifs
  · exact h.congr rfl rfl rfl rfl rfl h.room (Or.inl rfl)
  · have hmore : Accounted { t with failures := t.failures + 1 } [] :=
      h.congr rfl rfl rfl rfl rfl h.room (Or.inl rfl)
    exact (hmore.numbers .pinchEnd { t.state with lastEventId := t.state.lastEventId + 1 } rfl rfl
      (Or.inr rfl)).send _

/-- The thread does its next piece of work. -/
lemma Sound.work (h : t.Sound) {t' : CaptureThread} (hplace : t.place = .waiting)
    (hwork : t.Accounted [] → t'.Sound) : t'.Sound :=
  hwork (by simpa only [Sound, hplace, CapturePlace.hand] using h)

lemma Sound.step (h : t.Sound) (op : Op) : (t.step op).1.Sound := by
  cases op with
  | pass ms => exact h.congr rfl rfl rfl rfl rfl h.room (Or.inl rfl)
  | stamp => exact h.congr rfl rfl rfl rfl rfl h.room (Or.inl rfl)
  | setExclusive enabled => exact h.congr rfl rfl rfl rfl rfl h.room (Or.inl rfl)
  | requestStop => exact h.congr rfl rfl rfl rfl rfl h.room (Or.inl rfl)
  | receivePriority =>
    obtain ⟨hqueued, hsent⟩ := queued_receive t.priority
    exact h.congr rfl hsent rfl rfl rfl ⟨hqueued.trans h.room.1, h.room.2⟩ (Or.inl rfl)
  | receiveMotion =>
    obtain ⟨hqueued, hsent⟩ := queued_receive t.motion
    exact h.congr rfl rfl hsent rfl rfl ⟨h.room.1, hqueued.trans h.room.2⟩ (Or.inl rfl)
  | closePriority => exact h.congr rfl rfl rfl rfl rfl h.room (Or.inl rfl)
  | closeMotion => exact h.congr rfl rfl rfl rfl rfl h.room (Or.inl rfl)
  | look =>
    simp only [CaptureThread.step]
    split
    · have h' : t.Accounted [] := by simpa only [Sound, ‹t.place = _›, CapturePlace.hand] using h
      split_ifs
      · exact h'.congr rfl rfl rfl rfl rfl h.room (Or.inl rfl)
      · obtain ⟨exclusive, hwatchdog⟩ := t.watchdog_same
        rw [hwatchdog]
        exact h'.congr rfl rfl rfl rfl rfl h.room (Or.inl rfl)
    · exact h
  | nextEvent event now =>
    simp only [CaptureThread.step]
    split
    · refine h.work ‹_› fun h' => Accounted.captured ?_ ‹_› event now
      exact h'.congr rfl rfl rfl rfl rfl h.room (Or.inl rfl)
    · exact h
  | fail =>
    simp only [CaptureThread.step]
    split
    · exact h.work ‹_› fun h' => h'.failed
    · exact h
  | rebuild ok =>
    simp only [CaptureThread.step]
    split
    · refine h.work ‹_› fun h' => ?_
      split_ifs
      · exact h'.congr rfl rfl rfl rfl rfl h.room (Or.inr rfl)
      · exact h'.congr rfl rfl rfl rfl rfl h.room (Or.inl rfl)
      · exact h'.congr rfl rfl rfl rfl rfl h.room (Or.inl rfl)
    · exact h
  | retry =>
    simp only [CaptureThread.step]
    split
    · have h' : t.Accounted t.place.hand := h
      rw [‹t.place = _›] at h'
      exact Accounted.send h' _
    · exact h

lemma sound_after (exclusive : Bool) (heartbeat clock : ℕ) (l : List Op) :
    (after exclusive heartbeat clock l).Sound := by
  refine Trace.always (I := fun _ t => Sound t) ?_ fun _ op h => h.step op
  exact ⟨.refl _, rfl, .refl _, fun _ hd => absurd hd List.not_mem_nil, rfl, rfl, rfl,
    ⟨Nat.zero_le _, Nat.zero_le _⟩, nofun⟩

/-- What the drive and the thread have between them of the transitions. -/
def transitions (t : CaptureThread) : List CapturedEvent := t.priority.sent ++ t.place.hand

/-- **No transition is lost.** However the thread, the drive and the failures of backends
interleave, every event that was given a number is on one channel, in the thread's hand or let go,
once. The transitions are in order, and who folds them holds what is held here. Only motion and
wheels are let go: motion by a full channel, wheels by two. Both channels stay within their
capacity, the numbers go up by one, and a gesture is over when its backend is gone. -/
theorem capture_conserves (exclusive : Bool) (heartbeat clock : ℕ) (l : List Op) :
    let t := after exclusive heartbeat clock l
    t.numbered.Perm (t.transitions ++ t.motion.sent ++ t.shed.map Shed.captured) ∧
      t.transitions.filter (·.event.isTransition) =
        t.numbered.filter (·.event.isTransition) ∧
      t.motion.sent.Sublist t.numbered ∧
      CapturedState.replay .empty t.transitions = t.state.held ∧
      (∀ d ∈ t.shed, d.captured.event.isTransition = false ∧ d.motion.isFull ∧
        (d.captured.event.isWheel = true → d.priority.closed = true ∨ d.priority.isFull)) ∧
      t.priority.queued.length ≤ captureChannel ∧ t.motion.queued.length ≤ captureChannel ∧
      t.numbered.map CapturedEvent.eventId =
        (List.range t.numbered.length).map (fun n => UInt64.ofNat (n + 1)) ∧
      (t.backend = false →
        ((t.transitions.filter (·.event.isTransition)).getLast?).map CapturedEvent.event =
          some .pinchEnd) := by
  intro t
  have h : t.Sound := sound_after exclusive heartbeat clock l
  have hreplay : ∀ events : List CapturedEvent, CapturedState.replay .empty events =
      CapturedState.replay .empty (events.filter (·.event.isTransition)) := by
    intro events
    induction events using List.reverseRecOn with
    | nil => rfl
    | append_singleton events c ih =>
      rw [replay_snoc, ih, List.filter_append, List.filter_singleton]
      cases htransition : c.event.isTransition with
      | true => rw [cond_true, replay_snoc]
      | false => rw [cond_false, List.append_nil, apply_of_not_transition htransition]
  refine ⟨?_, h.transitions, h.motion, ?_, h.shed, h.room.1, h.room.2, h.ids, ?_⟩
  · refine h.conserved.trans ?_
    rw [transitions, List.append_assoc t.priority.sent t.place.hand]
    refine List.Perm.append_right _ ?_
    rw [List.append_assoc]
    exact List.perm_append_comm.append_left _
  · rw [hreplay, transitions, h.transitions, ← hreplay, h.held]
  · rw [transitions, h.transitions]
    exact h.gesture

/-! ### The watchdog -/

/-- What the drive has asked for last. -/
def asked (exclusive : Bool) (l : List Op) : Bool :=
  l.foldl (fun last op =>
    match op with
    | .setExclusive enabled => enabled
    | _ => last) exclusive

/-- The thread is at work, and may look after the drive. -/
def Op.works : Op → Bool
  | .look | .nextEvent .. | .fail | .retry => true
  | _ => false

/-- The drive is looked after: at the top of the loop, or as a send is held up. -/
def Looks (t : CaptureThread) : Op → Prop
  | .look => t.place.isTop = true ∧ t.stop = false
  | .retry => t.place.isSending = true ∧ t.priority.closed = false ∧ t.priority.isFull ∧
      t.stop = false
  | _ => False

/-- The last stamp is too old. -/
def Wedged (t : CaptureThread) : Prop := t.heartbeat ≠ 0 ∧ t.heartbeat + 4000 < t.clock

/-- The thread only takes the input back from a wedged drive. -/
structure Guarded (t t' : CaptureThread) : Prop where
  heartbeat : t'.heartbeat = t.heartbeat
  clock : t'.clock = t.clock
  exclusive : t'.exclusive = t.exclusive ∨ t.Wedged ∧ t'.exclusive = false

variable {t' : CaptureThread}

lemma Guarded.of_same (hheartbeat : t'.heartbeat = t.heartbeat) (hclock : t'.clock = t.clock)
    (hexclusive : t'.exclusive = t.exclusive) : Guarded t t' :=
  ⟨hheartbeat, hclock, Or.inl hexclusive⟩

lemma watchdog_guarded (t : CaptureThread) :
    Guarded t t.watchdog ∧ (t.Wedged → t.watchdog.exclusive = false) := by
  unfold watchdog taskHeartbeatStaleMs Wedged
  by_cases hexclusive : t.exclusive = false
  · rw [if_pos hexclusive]
    exact ⟨.of_same rfl rfl rfl, fun _ => hexclusive⟩
  · rw [if_neg hexclusive]
    by_cases hnever : t.heartbeat = 0
    · rw [if_pos hnever]
      exact ⟨.of_same rfl rfl rfl, fun h => absurd hnever h.1⟩
    · rw [if_neg hnever]
      dsimp only
      split_ifs with hyoung
      · exact ⟨.of_same rfl rfl rfl, fun h => absurd hyoung (by omega)⟩
      · exact ⟨⟨rfl, rfl, Or.inr ⟨⟨hnever, by omega⟩, rfl⟩⟩, fun _ => rfl⟩

lemma send_guarded (t : CaptureThread) (c : CapturedEvent) (last : Bool) :
    Guarded t (t.send c last) := by
  unfold CaptureThread.send
  split_ifs
  · exact .of_same rfl rfl rfl
  · exact .of_same rfl rfl rfl
  · obtain ⟨hheartbeat, hclock, hexclusive⟩ := t.watchdog_guarded.1
    exact ⟨hheartbeat, hclock, hexclusive⟩
  · exact .of_same rfl rfl rfl
  · exact .of_same rfl rfl rfl

lemma captured_guarded (t : CaptureThread) (event : InputEvent) (now : ℕ) :
    Guarded t (t.captured event now) := by
  unfold CaptureThread.captured
  by_cases hpinch : event.isPinch = true
  · rw [if_pos hpinch]
    obtain ⟨hheartbeat, hclock, hexclusive⟩ :=
      (t.numberEvent event).1.send_guarded (t.numberEvent event).2 false
    exact ⟨hheartbeat, hclock, hexclusive⟩
  · rw [if_neg hpinch]
    rcases t.state.record event now with ⟨state, _ | c⟩
    · exact .of_same rfl rfl rfl
    · dsimp only
      split_ifs
      · obtain ⟨hheartbeat, hclock, hexclusive⟩ := send_guarded
          { t with state := state, numbered := t.numbered ++ [c] } c false
        exact ⟨hheartbeat, hclock, hexclusive⟩
      · unfold offerWheel
        split_ifs <;> exact .of_same rfl rfl rfl
      · unfold offerMotion
        split_ifs <;> exact .of_same rfl rfl rfl

lemma failed_guarded (t : CaptureThread) : Guarded t t.failed := by
  unfold CaptureThread.failed
  split_ifs
  · exact .of_same rfl rfl rfl
  · obtain ⟨hheartbeat, hclock, hexclusive⟩ := send_guarded
      { t with
        failures := t.failures + 1
        backend := false
        state := { t.state with lastEventId := t.state.lastEventId + 1 }
        numbered := t.numbered ++ [⟨.pinchEnd, t.state.lastEventId + 1⟩] }
      ⟨.pinchEnd, t.state.lastEventId + 1⟩ (20 < t.failures + 1)
    exact ⟨hheartbeat, hclock, hexclusive⟩

/-- The thread's own steps. -/
lemma works_guarded {op : Op} (hop : op.works = true) (t : CaptureThread) :
    Guarded t (t.step op).1 := by
  cases op <;> simp only [Op.works, reduceCtorEq] at hop
  case look =>
    simp only [CaptureThread.step]
    split
    · split_ifs
      · exact .of_same rfl rfl rfl
      · obtain ⟨hheartbeat, hclock, hexclusive⟩ := t.watchdog_guarded.1
        exact ⟨hheartbeat, hclock, hexclusive⟩
    · exact .of_same rfl rfl rfl
  case nextEvent event now =>
    simp only [CaptureThread.step]
    split
    · obtain ⟨hheartbeat, hclock, hexclusive⟩ :=
        captured_guarded { t with failures := 0 } event now
      exact ⟨hheartbeat, hclock, hexclusive⟩
    · exact .of_same rfl rfl rfl
  case fail =>
    simp only [CaptureThread.step]
    split
    · exact t.failed_guarded
    · exact .of_same rfl rfl rfl
  case retry =>
    simp only [CaptureThread.step]
    split
    · exact t.send_guarded _ _
    · exact .of_same rfl rfl rfl

/-- A look takes the input back from a wedged drive. -/
lemma exclusive_of_looks {op : Op} (hlooks : t.Looks op) (hwedged : t.Wedged) :
    (t.step op).1.exclusive = false := by
  have hwatchdog := t.watchdog_guarded.2 hwedged
  cases op with
  | look =>
    obtain ⟨htop, hstop⟩ := hlooks
    rcases hplace : t.place with _ | _ | _ | _ <;> rw [hplace] at htop <;> try cases htop
    simp only [CaptureThread.step, hplace, hstop, Bool.false_eq_true, if_false]
    exact hwatchdog
  | retry =>
    obtain ⟨hsending, hclosed, hfull, hstop⟩ := hlooks
    rcases hplace : t.place with _ | _ | ⟨c, last⟩ | _ <;> rw [hplace] at hsending <;>
      try cases hsending
    simp only [CaptureThread.step, hplace, CaptureThread.send, hclosed, hstop, if_pos hfull,
      Bool.false_eq_true, if_false]
    exact hwatchdog
  | _ => exact hlooks.elim

/-- The other steps leave the request to the drive. -/
lemma step_rest {op : Op} (hop : op.works = false) (t : CaptureThread) :
    (t.step op).1.exclusive = (match op with
      | .setExclusive enabled => enabled
      | _ => t.exclusive) ∧
    (t.step op).1.heartbeat = (match op with
      | .stamp => stampTaskHeartbeat t.heartbeat t.clock
      | _ => t.heartbeat) := by
  cases op with
  | look | nextEvent | fail | retry => cases hop
  | rebuild ok =>
    simp only [CaptureThread.step]
    split
    · split_ifs <;> exact ⟨rfl, rfl⟩
    · exact ⟨rfl, rfl⟩
  | _ => exact ⟨rfl, rfl⟩

section

variable {exclusive : Bool} {heartbeat clock : ℕ} {l m : List Op} {op : Op}

/-- The drive goes on: as the thread is at work, the last stamp is young. -/
def Beats (exclusive : Bool) (heartbeat clock : ℕ) (l : List Op) : Prop :=
  Trace.Each (fun m op => op.works = true → ∃ k, k ++ [.stamp] <+: m ∧
    (after exclusive heartbeat clock m).clock ≤
      (after exclusive heartbeat clock k).clock + 3900) l

/-- No stamp is much later than the one that counts. -/
lemma stamp_lt : ∀ k, k ++ [.stamp] <+: l → (after exclusive heartbeat clock k).clock <
    (after exclusive heartbeat clock l).heartbeat + 100 := by
  refine Trace.always (I := fun l (t : CaptureThread) => ∀ k, k ++ [.stamp] <+: l →
    (after exclusive heartbeat clock k).clock < t.heartbeat + 100) ?_ ?_
  · intro k hk
    simpa using hk.length_le
  · intro m op ih k hk
    by_cases hop : op.works = true
    · rw [(works_guarded hop _).heartbeat]
      rcases List.prefix_concat_iff.mp hk with heq | hk
      · obtain ⟨rfl, hstamp⟩ := List.append_inj' heq rfl
        obtain rfl := List.singleton_inj.mp hstamp
        cases hop
      · exact ih k hk
    · rw [(step_rest (Bool.eq_false_iff.mpr hop) _).2]
      rcases List.prefix_concat_iff.mp hk with heq | hk
      · obtain ⟨rfl, hstamp⟩ := List.append_inj' heq rfl
        obtain rfl := List.singleton_inj.mp hstamp
        dsimp only [stampTaskHeartbeat, after]
        split_ifs <;> omega
      · have hbefore := ih k hk
        cases op <;> try exact hbefore
        dsimp only [stampTaskHeartbeat]
        split_ifs <;> omega

/-- **The watchdog.** A drive that goes on keeps what it asked for: as long as it stamps every 3.9
seconds, local input is held back exactly as it last requested. And a wedged drive loses it: after
a look of the thread at which the last stamp is over four seconds old, local input stays free until
the drive asks again. -/
theorem watchdog_exact (exclusive : Bool) (heartbeat clock : ℕ) (l : List Op) :
    (Beats exclusive heartbeat clock l →
      (after exclusive heartbeat clock l).exclusive = asked exclusive l) ∧
    ∀ m op r, l = m ++ op :: r → (after exclusive heartbeat clock m).Looks op →
      (after exclusive heartbeat clock m).Wedged → Op.setExclusive true ∉ r →
      (after exclusive heartbeat clock l).exclusive = false := by
  constructor
  · refine Trace.invariant (I := fun l (t : CaptureThread) => t.exclusive = asked exclusive l) rfl ?_
    intro m op ih hbeats
    rw [asked, List.foldl_append, List.foldl_cons, List.foldl_nil, ← asked]
    by_cases hop : op.works = true
    · obtain ⟨k, hk, hyoung⟩ := hbeats hop
      have hstamp : (after exclusive heartbeat clock k).clock <
          (after exclusive heartbeat clock m).heartbeat + 100 := stamp_lt k hk
      rw [show asked exclusive m = _ from ih.symm]
      rcases (works_guarded hop _).exclusive with hsame | ⟨⟨-, hold⟩, -⟩
      · cases op <;> first | exact hsame | cases hop
      · dsimp only [after] at hyoung hstamp
        omega
    · rw [(step_rest (Bool.eq_false_iff.mpr hop) _).1]
      cases op <;> first | exact ih | rfl
  · rintro m op r rfl hlooks hwedged hr
    have hfree := exclusive_of_looks hlooks hwedged
    show (Trace.final step (start exclusive heartbeat clock) (m ++ op :: r)).exclusive = false
    rw [Trace.final_append, Trace.final_cons]
    generalize ((after exclusive heartbeat clock m).step op).1 = t at hfree ⊢
    induction r generalizing t with
    | nil => exact hfree
    | cons op r ih =>
      rw [List.mem_cons, not_or] at hr
      refine ih hr.2 _ ?_
      by_cases hop : op.works = true
      · exact (works_guarded hop t).exclusive.elim (fun hsame => hsame.trans hfree) And.right
      · rw [(step_rest (Bool.eq_false_iff.mpr hop) t).1]
        cases op with
        | setExclusive enabled =>
          cases enabled
          · rfl
          · exact absurd rfl hr.1
        | _ => exact hfree

end

end CaptureThread

end TheKvm

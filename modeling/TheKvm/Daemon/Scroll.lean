import TheKvm.Daemon.Episode
import TheKvm.Lib.Trace

/-!
Keys and wheel steps of one drive, from the capture to a peer with smooth scroll.

A wheel step rides the motion lane if no key is held when it is routed. The keys ride the episode
stream, and either may arrive first.
-/

namespace TheKvm

/-! ### The driver -/

/-- `saturating_neg`. -/
def saturatingNeg32 (x : Int32) : Int32 := if x = Int32.minValue then Int32.maxValue else -x

def saturatingNeg16 (x : Int16) : Int16 := if x = Int16.minValue then Int16.maxValue else -x

def applyReverseScroll (event : InputEvent) (reverse : Bool) : InputEvent :=
  if reverse then
    match event with
    | .smoothWheel x y => .smoothWheel (saturatingNeg32 x) (saturatingNeg32 y)
    | .wheel delta => .wheel ⟨saturatingNeg16 delta.x, saturatingNeg16 delta.y⟩
    | _ => event
  else event

def wheelUseLane (laneOpen keysHeld pinchHeld : Bool) : Bool :=
  laneOpen && !keysHeld && !pinchHeld

def InputEvent.isWheel : InputEvent → Bool
  | .wheel _ => true
  | .smoothWheel _ _ => true
  | _ => false

/-- What is captured in the drive. -/
inductive ScrollInput
  | key (event : KeyEvent)
  | wheel (delta : WheelDelta)
  | smoothWheel (x y : Int32)

def ScrollInput.event : ScrollInput → InputEvent
  | .key event => .key event
  | .wheel delta => .wheel delta
  | .smoothWheel x y => .smoothWheel x y

/-- An event, the keys physically held when it was captured, and how many key events of the drive
came before it. -/
structure Scrolled where
  event : InputEvent
  keys : Finset HidUsage
  before : ℕ

/-! ### The drive -/

/-- The capture, what is not routed yet, what is under way and the receiver. -/
structure ScrollDrive where
  capture : CapturedState
  queue : List Scrolled
  sequence : UInt64
  stream : List (UInt64 × Scrolled)
  lane : List (UInt64 × Scrolled)
  receiver : Episode
  /-- The key events captured. -/
  log : List KeyEvent
  /-- How many key events have arrived. -/
  arrived : ℕ

inductive ScrollOp
  | capture (input : ScrollInput) (now : ℕ)
  | route (reverse : Bool)
  | deliverStream (env : EpisodeEnv)
  | deliverLane (env : EpisodeEnv)

/-- What arrived, the keys the receiver held then, and what it passed on. -/
structure ScrollDelivery where
  scrolled : Scrolled
  keys : Finset HidUsage
  calls : List InjectorCall

namespace ScrollDrive

/-- A drive has just been opened: the peer took the keys that are held. -/
def start (capture : CapturedState) (sequence : UInt64) (receiver : Episode) : ScrollDrive where
  capture
  queue := []
  sequence
  stream := []
  lane := []
  receiver :=
    { receiver with
      remoteIdle := false, inputPermit := true, held := .ofInputState capture.snapshot.state }
  log := []
  arrived := 0

def logKey (log : List KeyEvent) : InputEvent → List KeyEvent
  | .key event => log ++ [event]
  | _ => log

/-- One event recorded and queued. -/
def record (s : ScrollDrive) (event : InputEvent) (now : ℕ) : ScrollDrive :=
  match s.capture.record event now with
  | (capture, none) => { s with capture }
  | (capture, some captured) =>
    { s with
      capture
      queue := s.queue ++ [⟨captured.event, s.capture.keys, s.log.length⟩]
      log := logKey s.log captured.event }

/-- One event sent, on the lane or on the stream. The keys are those held now. -/
def route (laneOpen : Bool) (s : ScrollDrive) (reverse : Bool) : ScrollDrive :=
  match s.queue with
  | [] => s
  | scrolled :: queue =>
    -- `pressed_keys` of a snapshot lists this set
    let keysHeld := s.capture.keys ≠ ∅
    let event := applyReverseScroll scrolled.event reverse
    let sequence := s.sequence + 1
    let frame := (sequence, { scrolled with event })
    if event.isWheel && wheelUseLane laneOpen keysHeld false then
      { s with queue, sequence, lane := s.lane ++ [frame] }
    else { s with queue, sequence, stream := s.stream ++ [frame] }

/-- A frame handled by the receiver, whose injector works. -/
def deliver (s : ScrollDrive) (env : EpisodeEnv) (scrolled : Scrolled) (arm : EpisodeArm) :
    ScrollDrive × Option ScrollDelivery :=
  let handled := (s.receiver.handle { env with injector := .takes } false arm).2
  ({ s with
      receiver := handled.episode
      arrived := match scrolled.event with
        | .key _ => s.arrived + 1
        | _ => s.arrived },
    some ⟨scrolled, s.receiver.held.keys, handled.calls⟩)

def step (laneOpen : Bool) (s : ScrollDrive) : ScrollOp → ScrollDrive × Option ScrollDelivery
  | .capture input now => (s.record input.event now, none)
  | .route reverse => (s.route laneOpen reverse, none)
  | .deliverStream env =>
    match s.stream with
    | [] => (s, none)
    | (sequence, scrolled) :: stream =>
      { s with stream }.deliver env scrolled (.stream (.input ⟨sequence, scrolled.event⟩))
  | .deliverLane env =>
    match s.lane with
    | [] => (s, none)
    | (sequence, scrolled) :: lane =>
      { s with lane }.deliver env scrolled (.lane (.input ⟨sequence, scrolled.event⟩))

def after (laneOpen : Bool) (s : ScrollDrive) (ops : List ScrollOp) : ScrollDrive :=
  Trace.final (step laneOpen) s ops

/-! ### Wheel steps and their modifiers -/

/-- A wheel step that is applied finds the keys held with which it was captured. -/
def Modified (laneOpen : Bool) (s : ScrollDrive) (op : ScrollOp) : Prop :=
  ∀ delivery, (s.step laneOpen op).2 = some delivery →
    delivery.scrolled.event.isWheel = true →
    .send delivery.scrolled.event ∈ delivery.calls → delivery.keys = delivery.scrolled.keys

end ScrollDrive

/-- The keys after key events. -/
def keysAfter (keys : Finset HidUsage) (events : List KeyEvent) : Finset HidUsage :=
  events.foldl (fun keys event =>
    if event.pressed then insert event.usage keys else keys.erase event.usage) keys

namespace ScrollDrive

/-- The keys of the drive after the first `n` key events. -/
def keysAt (s : ScrollDrive) (keys : Finset HidUsage) (n : ℕ) : Finset HidUsage :=
  keysAfter keys (s.log.take n)

/-- The key events that a wheel step overtook, or that overtook it, cancel out. -/
def Cancels (keys : Finset HidUsage) (s : ScrollDrive) (scrolled : Scrolled) : Prop :=
  let crossed := (s.log.take (max scrolled.before s.arrived)).drop (min scrolled.before s.arrived)
  let keys := s.keysAt keys (min scrolled.before s.arrived)
  keysAfter keys crossed = keys

/-- The number of a frame is not taken for that of an earlier one. -/
def Fresh (s : ScrollDrive) : ScrollOp → Prop
  | .deliverStream _ => ∀ sequence scrolled stream, s.stream = (sequence, scrolled) :: stream →
      sequence ∉ s.receiver.input.seenSequences
  | .deliverLane _ => ∀ sequence scrolled lane, s.lane = (sequence, scrolled) :: lane →
      sequence ∉ s.receiver.input.seenSequences
  | _ => True

/-- The key events that a wheel step of the lane crosses cancel out. -/
def Uncrossed (keys : Finset HidUsage) (s : ScrollDrive) : ScrollOp → Prop
  | .deliverLane _ => ∀ sequence scrolled lane, s.lane = (sequence, scrolled) :: lane →
      s.Cancels keys scrolled
  | _ => True

end ScrollDrive

/-! ### Keys -/

lemma keysAfter_append (keys : Finset HidUsage) (l m : List KeyEvent) :
    keysAfter keys (l ++ m) = keysAfter (keysAfter keys l) m := List.foldl_append

lemma keys_apply (h : Held) (event : KeyEvent) :
    (h.apply (.key event)).keys = keysAfter h.keys [event] := rfl

/-- Key events and wheel steps. -/
def InputEvent.scrolls : InputEvent → Bool
  | .key _ => true
  | event => event.isWheel

lemma keys_apply_wheel (h : Held) {event : InputEvent} (hwheel : event.isWheel = true) :
    h.apply event = h := by
  cases event with
  | wheel | smoothWheel => rfl
  | _ => cases hwheel

@[simp] lemma applyReverseScroll_key (event : KeyEvent) (reverse : Bool) :
    applyReverseScroll (.key event) reverse = .key event := by
  cases reverse <;> rfl

lemma isWheel_applyReverseScroll (event : InputEvent) (reverse : Bool) :
    (applyReverseScroll event reverse).isWheel = event.isWheel := by
  cases reverse
  · rfl
  · cases event <;> rfl

lemma scrolls_applyReverseScroll (event : InputEvent) (reverse : Bool) :
    (applyReverseScroll event reverse).scrolls = event.scrolls := by
  cases reverse
  · rfl
  · cases event <;> rfl

namespace ScrollDrive

variable {keys : Finset HidUsage} {s : ScrollDrive} {scrolled : Scrolled}

lemma keysAt_succ {n : ℕ} {event : KeyEvent} (h : s.log[n]? = some event) :
    s.keysAt keys (n + 1) = keysAfter (s.keysAt keys n) [event] := by
  rw [keysAt, List.take_add_one, h, keysAfter_append]
  rfl

/-- Crossed key events cancel out when the same keys are held on both sides. -/
lemma cancels_iff : s.Cancels keys scrolled ↔
    s.keysAt keys s.arrived = s.keysAt keys scrolled.before := by
  have hsplit {lo hi : ℕ} (h : lo ≤ hi) :
      keysAfter (s.keysAt keys lo) ((s.log.take hi).drop lo) = s.keysAt keys hi := by
    have htake : s.log.take lo = (s.log.take hi).take lo := by rw [List.take_take, min_eq_left h]
    rw [keysAt, htake, ← keysAfter_append, List.take_append_drop]
    rfl
  rw [Cancels]
  rcases le_total scrolled.before s.arrived with h | h
  · rw [max_eq_right h, min_eq_left h, hsplit h]
  · rw [max_eq_left h, min_eq_right h, hsplit h, eq_comm]

/-! ### Order on the stream -/

/-- The frames count the key events on from `n`, up to `m`. -/
def Follows (log : List KeyEvent) : ℕ → List Scrolled → ℕ → Prop
  | n, [], m => n = m
  | n, scrolled :: rest, m =>
    scrolled.before = n ∧
      match scrolled.event with
      | .key event => log[n]? = some event ∧ Follows log (n + 1) rest m
      | _ => Follows log n rest m

section

variable {log : List KeyEvent} {l l' : List Scrolled} {n m : ℕ}

lemma follows_key {event : KeyEvent} (hkey : scrolled.event = .key event) :
    Follows log n (scrolled :: l) m ↔
      scrolled.before = n ∧ log[n]? = some event ∧ Follows log (n + 1) l m := by
  rw [Follows, hkey]

/-- What is no key event counts nothing. -/
lemma follows_other (hother : ∀ event, scrolled.event ≠ .key event) :
    Follows log n (scrolled :: l) m ↔ scrolled.before = n ∧ Follows log n l m := by
  rw [Follows]
  split
  next event heq => exact absurd heq (hother event)
  next => rfl

lemma follows_append : Follows log n (l ++ l') m ↔ ∃ k, Follows log n l k ∧ Follows log k l' m := by
  induction l generalizing n with
  | nil => simp [Follows]
  | cons f l ih =>
    rw [List.cons_append]
    by_cases hkey : ∃ event, f.event = .key event
    · obtain ⟨event, hkey⟩ := hkey
      simp only [follows_key hkey, ih, and_assoc, exists_and_left]
    · have hother : ∀ event, f.event ≠ .key event := fun event heq => hkey ⟨event, heq⟩
      simp only [follows_other hother, ih, and_assoc, exists_and_left]

lemma Follows.mono {log' : List KeyEvent} (hlog : log <+: log') (h : Follows log n l m) :
    Follows log' n l m := by
  induction l generalizing n with
  | nil => exact h
  | cons f l ih =>
    by_cases hkey : ∃ event, f.event = .key event
    · obtain ⟨event, hkey⟩ := hkey
      obtain ⟨hbefore, hget, hrest⟩ := (follows_key hkey).mp h
      obtain ⟨more, rfl⟩ := hlog
      refine (follows_key hkey).mpr ⟨hbefore, ?_, ih hrest⟩
      rw [List.getElem?_append_left (List.getElem?_eq_some_iff.mp hget).1, hget]
    · have hother : ∀ event, f.event ≠ .key event := fun event heq => hkey ⟨event, heq⟩
      obtain ⟨hbefore, hrest⟩ := (follows_other hother).mp h
      exact (follows_other hother).mpr ⟨hbefore, ih hrest⟩

lemma follows_wheel (hwheel : scrolled.event.isWheel = true) :
    Follows log n (scrolled :: l) m ↔ scrolled.before = n ∧ Follows log n l m := by
  refine follows_other fun event heq => ?_
  rw [heq] at hwheel
  cases hwheel

lemma isWheel_of_scrolls {event : InputEvent} (h : event.scrolls = true)
    (hkey : ∀ key, event ≠ .key key) : event.isWheel = true := by
  cases event with
  | key key => exact absurd rfl (hkey key)
  | _ => exact h

/-- Reversed scrolling counts the same. -/
lemma follows_reverse (hscrolls : scrolled.event.scrolls = true) {reverse : Bool} :
    Follows log n ({ scrolled with event := applyReverseScroll scrolled.event reverse } :: l) m ↔
      Follows log n (scrolled :: l) m := by
  by_cases hkey : ∃ event, scrolled.event = .key event
  · obtain ⟨event, hkey⟩ := hkey
    rw [follows_key hkey, hkey, applyReverseScroll_key]
    exact follows_key rfl
  · have hwheel := isWheel_of_scrolls hscrolls fun event heq => hkey ⟨event, heq⟩
    have hreversed : (applyReverseScroll scrolled.event reverse).isWheel = true :=
      (isWheel_applyReverseScroll _ _).trans hwheel
    exact (follows_wheel hreversed).trans (follows_wheel hwheel).symm

end

/-! ### The receiver -/

/-- A key event or a wheel step with a fresh number is injected. -/
lemma processInput_scrolls (env : EpisodeEnv) (e : Episode) {sequence : UInt64}
    {event : InputEvent} (hscrolls : event.scrolls = true)
    (hfresh : sequence ∉ e.input.seenSequences) :
    let handled := e.processInput { env with injector := .takes } ⟨sequence, event⟩
    handled.calls = [.send event] ∧ handled.episode.held = e.held.apply event ∧
      handled.episode.remoteIdle = e.remoteIdle := by
  have hprocess : (e.input.process env.config env.os e.peerScreenGeometry ⟨sequence, event⟩).2 =
      .inject event := by
    rw [RemoteInput.process, if_neg hfresh]
    cases event with
    | key | wheel | smoothWheel => rfl
    | _ => cases hscrolls
  have hpinch : event.isPinch = false := by
    cases event with
    | key | wheel | smoothWheel => rfl
    | _ => cases hscrolls
  simp only [Episode.processInput, hpinch, Bool.false_eq_true, if_false, Episode.processPacket]
  generalize e.input.process env.config env.os e.peerScreenGeometry ⟨sequence, event⟩ = result
    at hprocess
  obtain ⟨input, outcome⟩ := result
  simp only at hprocess
  subst hprocess
  exact ⟨rfl, rfl, rfl⟩

/-- What holds along a drive. -/
structure Lined (keys : Finset HidUsage) (s : ScrollDrive) : Prop where
  idle : s.receiver.remoteIdle = false
  captured : s.capture.keys = keysAfter keys s.log
  held : s.receiver.held.keys = s.keysAt keys s.arrived
  follows : Follows s.log s.arrived (s.stream.map Prod.snd ++ s.queue) s.log.length
  known : ∀ scrolled, scrolled ∈ s.queue ++ s.stream.map Prod.snd ++ s.lane.map Prod.snd →
    scrolled.event.scrolls = true ∧ scrolled.keys = s.keysAt keys scrolled.before ∧
      scrolled.before ≤ s.log.length
  lane : ∀ frame ∈ s.lane, frame.2.event.isWheel = true

lemma record_scrolls (c : CapturedState) (input : ScrollInput) (now : ℕ) {captured : CapturedEvent}
    (h : (c.record input.event now).2 = some captured) : captured.event.scrolls = true := by
  cases input with
  | key key =>
    simp only [ScrollInput.event, CapturedState.record] at h
    split_ifs at h <;> obtain rfl := Option.some.inj h <;> rfl
  | wheel delta =>
    obtain rfl := Option.some.inj h
    rfl
  | smoothWheel x y =>
    obtain rfl := Option.some.inj h
    rfl

lemma prefix_logKey (log : List KeyEvent) (event : InputEvent) : log <+: logKey log event := by
  cases event with
  | key event => exact List.prefix_append log [event]
  | _ => exact List.prefix_refl log

/-- Older readings of a log that grows. -/
lemma take_logKey (log : List KeyEvent) (event : InputEvent) {n : ℕ} (h : n ≤ log.length) :
    (logKey log event).take n = log.take n := by
  obtain ⟨more, hmore⟩ := prefix_logKey log event
  rw [← hmore, List.take_append_of_le_length h]

/-- A recorded event follows those before it. -/
lemma follows_snoc {log : List KeyEvent} {n : ℕ} {l : List Scrolled} {event : InputEvent}
    {held : Finset HidUsage} (hscrolls : event.scrolls = true) (h : Follows log n l log.length) :
    Follows (logKey log event) n (l ++ [⟨event, held, log.length⟩]) (logKey log event).length := by
  refine follows_append.mpr ⟨log.length, h.mono (prefix_logKey log event), ?_⟩
  cases event with
  | key event =>
    refine (follows_key rfl).mpr ⟨rfl, ?_, ?_⟩
    · rw [logKey, List.getElem?_concat_length]
    · rw [logKey, List.length_append]
      rfl
  | wheel | smoothWheel => exact (follows_wheel rfl).mpr ⟨rfl, rfl⟩
  | _ => cases hscrolls

lemma keysAfter_logKey (log : List KeyEvent) {h : Held} (hkeys : h.keys = keysAfter keys log)
    {event : InputEvent} (hscrolls : event.scrolls = true) :
    (h.apply event).keys = keysAfter keys (logKey log event) := by
  cases event with
  | key event => rw [keys_apply, hkeys, logKey, keysAfter_append]
  | wheel | smoothWheel => exact hkeys
  | _ => cases hscrolls

lemma Follows.arrived_le {log : List KeyEvent} {n m : ℕ} {l : List Scrolled}
    (h : Follows log n l m) : n ≤ m := by
  induction l generalizing n with
  | nil => exact le_of_eq h
  | cons f l ih =>
    by_cases hkey : ∃ event, f.event = .key event
    · obtain ⟨event, hkey⟩ := hkey
      have hrest := ih ((follows_key hkey).mp h).2.2
      omega
    · have hother : ∀ event, f.event ≠ .key event := fun event heq => hkey ⟨event, heq⟩
      exact ih ((follows_other hother).mp h).2

namespace Lined

lemma record (h : s.Lined keys) (input : ScrollInput) (now : ℕ) :
    (s.record input.event now).Lined keys := by
  have hscrolls : ∀ captured, (s.capture.record input.event now).2 = some captured →
      captured.event.scrolls = true := fun _ => record_scrolls s.capture input now
  have hcases := s.capture.record_cases input.event now
  rw [ScrollDrive.record]
  rcases hrecord : s.capture.record input.event now with ⟨capture, _ | ⟨sent, eventId⟩⟩
  · rw [hrecord] at hcases
    obtain ⟨sent, hout, -⟩ | ⟨-, -, hheld⟩ := hcases
    · cases hout
    · refine ⟨h.idle, ?_, h.held, h.follows, h.known, h.lane⟩
      exact (congrArg Held.keys hheld).trans h.captured
  · rw [hrecord] at hcases hscrolls
    have hsent := hscrolls ⟨sent, eventId⟩ rfl
    obtain ⟨sent', hout, -, hheld⟩ | ⟨hout, -⟩ := hcases
    · obtain ⟨rfl, -⟩ := CapturedEvent.mk.inj (Option.some.inj hout)
      have hkeys {n : ℕ} (hn : n ≤ s.log.length) :
          keysAfter keys ((logKey s.log sent).take n) = keysAfter keys (s.log.take n) := by
        rw [take_logKey s.log sent hn]
      refine ⟨h.idle, ?_, ?_, ?_, ?_, h.lane⟩
      · exact (congrArg Held.keys hheld).trans (keysAfter_logKey s.log h.captured hsent)
      · exact h.held.trans (hkeys h.follows.arrived_le).symm
      · simp only
        rw [← List.append_assoc]
        exact follows_snoc hsent h.follows
      · intro scrolled hscrolled
        simp only [List.mem_append, List.mem_singleton] at hscrolled
        have hold : scrolled ∈ s.queue ++ s.stream.map Prod.snd ++ s.lane.map Prod.snd ∨
            scrolled = ⟨sent, s.capture.keys, s.log.length⟩ := by
          simp only [List.mem_append]
          tauto
        have hlength : s.log.length ≤ (logKey s.log sent).length :=
          (prefix_logKey s.log sent).length_le
        rcases hold with hold | rfl
        · obtain ⟨hkind, hold, hle⟩ := h.known scrolled hold
          exact ⟨hkind, hold.trans (hkeys hle).symm, hle.trans hlength⟩
        · refine ⟨hsent, ?_, hlength⟩
          show s.capture.keys = keysAfter keys ((logKey s.log sent).take s.log.length)
          rw [hkeys le_rfl, List.take_length, h.captured]
    · cases hout

lemma route (h : s.Lined keys) (laneOpen reverse : Bool) :
    (s.route laneOpen reverse).Lined keys := by
  rw [ScrollDrive.route]
  rcases hqueue : s.queue with _ | ⟨first, queue⟩
  · exact h
  let sent : Scrolled := { first with event := applyReverseScroll first.event reverse }
  obtain ⟨hkind, hkeys, hle⟩ := h.known first (by simp [hqueue])
  have hknown : ∀ scrolled, scrolled = sent ∨
      scrolled ∈ queue ++ s.stream.map Prod.snd ++ s.lane.map Prod.snd →
      scrolled.event.scrolls = true ∧ scrolled.keys = s.keysAt keys scrolled.before ∧
        scrolled.before ≤ s.log.length := by
    rintro scrolled (rfl | hold)
    · exact ⟨(scrolls_applyReverseScroll _ _).trans hkind, hkeys, hle⟩
    · exact h.known scrolled (by simp [hqueue] at hold ⊢; tauto)
  have hfollows := h.follows
  rw [hqueue] at hfollows
  obtain ⟨k, hstream, hfirst⟩ := follows_append.mp hfollows
  simp only
  split
  next hlane =>
    have hwheel : sent.event.isWheel = true := by
      simp only [Bool.and_eq_true] at hlane
      exact hlane.1
    have hwheel' : first.event.isWheel = true :=
      (isWheel_applyReverseScroll _ _).symm.trans hwheel
    refine ⟨h.idle, h.captured, h.held, ?_, ?_, ?_⟩
    · exact follows_append.mpr ⟨k, hstream, ((follows_wheel hwheel').mp hfirst).2⟩
    · intro scrolled hscrolled
      refine hknown scrolled ?_
      simp only [List.map_append, List.mem_append, List.map_cons, List.map_nil,
        List.mem_singleton] at hscrolled ⊢
      tauto
    · intro frame hframe
      rcases List.mem_append.mp hframe with hframe | hframe
      · exact h.lane frame hframe
      · rw [List.mem_singleton.mp hframe]
        exact hwheel
  next =>
    refine ⟨h.idle, h.captured, h.held, ?_, ?_, h.lane⟩
    · simp only [List.map_append, List.map_cons, List.map_nil, List.append_assoc,
        List.singleton_append]
      exact follows_append.mpr ⟨k, hstream, (follows_reverse hkind).mpr hfirst⟩
    · intro scrolled hscrolled
      refine hknown scrolled ?_
      simp only [List.map_append, List.mem_append, List.map_cons, List.map_nil,
        List.mem_singleton] at hscrolled ⊢
      tauto

variable {laneOpen : Bool} {env : EpisodeEnv} {sequence : UInt64} {rest : List (UInt64 × Scrolled)}

/-- The head of the stream counts what has arrived. -/
lemma deliverStream (h : s.Lined keys) (hstream : s.stream = (sequence, scrolled) :: rest)
    (hfresh : sequence ∉ s.receiver.input.seenSequences) :
    (s.step laneOpen (.deliverStream env)).1.Lined keys ∧
      (s.step laneOpen (.deliverStream env)).2 =
        some ⟨scrolled, s.receiver.held.keys, [.send scrolled.event]⟩ := by
  obtain ⟨hkind, -⟩ := h.known scrolled (by simp [hstream])
  rcases hhandled : (s.receiver.handle { env with injector := .takes } false
    (.stream (.input ⟨sequence, scrolled.event⟩))).2 with ⟨e, calls, sent, next⟩
  obtain ⟨rfl, hheld, hidle⟩ : calls = [.send scrolled.event] ∧
      e.held = s.receiver.held.apply scrolled.event ∧ e.remoteIdle = false := by
    have hprocess := processInput_scrolls env { s.receiver with remoteIdle := false } hkind hfresh
    rwa [show Episode.processInput _ _ _ = ⟨e, calls, sent, next⟩ from hhandled] at hprocess
  have hfollows := h.follows
  rw [hstream] at hfollows
  have hknown : ∀ other, other ∈ s.queue ++ rest.map Prod.snd ++ s.lane.map Prod.snd →
      other.event.scrolls = true ∧ other.keys = s.keysAt keys other.before ∧
        other.before ≤ s.log.length :=
    fun other hother => h.known other (by simp [hstream] at hother ⊢; tauto)
  simp only [ScrollDrive.step, hstream, deliver, hhandled, and_true]
  rcases hevent : scrolled.event with event | _ | _ | delta | ⟨x, y⟩ | _ | _
  case key =>
    obtain ⟨-, hget, hrest⟩ := (follows_key hevent).mp hfollows
    refine ⟨hidle, h.captured, ?_, hrest, hknown, h.lane⟩
    show e.held.keys = s.keysAt keys (s.arrived + 1)
    rw [hheld, hevent, keys_apply, h.held, keysAt_succ hget]
  case wheel | smoothWheel =>
    have hwheel : scrolled.event.isWheel = true := by rw [hevent]; rfl
    refine ⟨hidle, h.captured, ?_, ((follows_wheel hwheel).mp hfollows).2, hknown, h.lane⟩
    show e.held.keys = s.keysAt keys s.arrived
    rw [hheld, keys_apply_wheel _ hwheel, h.held]
  all_goals
    rw [hevent] at hkind
    cases hkind

/-- A wheel step off the lane changes no keys. -/
lemma deliverLane (h : s.Lined keys) (hlane : s.lane = (sequence, scrolled) :: rest)
    (hfresh : sequence ∉ s.receiver.input.seenSequences) :
    (s.step laneOpen (.deliverLane env)).1.Lined keys ∧
      (s.step laneOpen (.deliverLane env)).2 =
        some ⟨scrolled, s.receiver.held.keys, [.send scrolled.event]⟩ := by
  obtain ⟨hkind, -⟩ := h.known scrolled (by simp [hlane])
  obtain ⟨hcalls, hheld, hidle⟩ := processInput_scrolls env s.receiver hkind hfresh
  have hwheel : scrolled.event.isWheel = true := h.lane (sequence, scrolled) (by simp [hlane])
  have hknown : ∀ other, other ∈ s.queue ++ s.stream.map Prod.snd ++ rest.map Prod.snd →
      other.event.scrolls = true ∧ other.keys = s.keysAt keys other.before ∧
        other.before ≤ s.log.length :=
    fun other hother => h.known other (by simp [hlane] at hother ⊢; tauto)
  have hrest : ∀ frame ∈ rest, frame.2.event.isWheel = true :=
    fun frame hframe => h.lane frame (by simp [hlane, hframe])
  have harrived : (match scrolled.event with
      | .key _ => s.arrived + 1
      | _ => s.arrived) = s.arrived := by
    rcases hevent : scrolled.event <;> first | rfl | (rw [hevent] at hwheel; cases hwheel)
  rw [keys_apply_wheel _ hwheel] at hheld
  simp only [ScrollDrive.step, hlane, deliver, Episode.handle, Episode.handleLane, h.idle,
    Bool.false_eq_true, if_false, hcalls, harrived, and_true]
  refine ⟨hidle.trans h.idle, h.captured, ?_, h.follows, hknown, hrest⟩
  exact (congrArg Held.keys hheld).trans h.held

/-- Fresh numbers keep the order. -/
lemma step (h : s.Lined keys) {op : ScrollOp} (hfresh : s.Fresh op) :
    (s.step laneOpen op).1.Lined keys := by
  cases op with
  | capture input now => exact h.record input now
  | route reverse => exact h.route laneOpen reverse
  | deliverStream env =>
    rcases hstream : s.stream with _ | ⟨⟨sequence, scrolled⟩, rest⟩
    · simp only [ScrollDrive.step, hstream]
      exact h
    · exact (h.deliverStream hstream (hfresh sequence scrolled rest hstream)).1
  | deliverLane env =>
    rcases hlane : s.lane with _ | ⟨⟨sequence, scrolled⟩, rest⟩
    · simp only [ScrollDrive.step, hlane]
      exact h
    · exact (h.deliverLane hlane (hfresh sequence scrolled rest hlane)).1

/-- A wheel step of the stream has the keys of its capture, one of the lane has them if what it
crossed cancels out. -/
lemma modified_iff (h : s.Lined keys) {op : ScrollOp} (hfresh : s.Fresh op) :
    s.Modified laneOpen op ↔ s.Uncrossed keys op := by
  cases op with
  | capture input now => exact iff_of_true (fun _ hnone => nomatch hnone) trivial
  | route reverse => exact iff_of_true (fun _ hnone => nomatch hnone) trivial
  | deliverStream env =>
    refine iff_of_true (fun delivery hdelivery hwheel _ => ?_) trivial
    rcases hstream : s.stream with _ | ⟨⟨sequence, scrolled⟩, rest⟩
    · simp only [ScrollDrive.step, hstream] at hdelivery
      cases hdelivery
    · rw [(h.deliverStream hstream (hfresh sequence scrolled rest hstream)).2] at hdelivery
      obtain rfl := Option.some.inj hdelivery
      have hfollows := h.follows
      rw [hstream] at hfollows
      have hbefore := ((follows_wheel hwheel).mp hfollows).1
      rw [(h.known scrolled (by simp [hstream])).2.1, hbefore]
      exact h.held
  | deliverLane env =>
    rcases hlane : s.lane with _ | ⟨⟨sequence, scrolled⟩, rest⟩
    · refine iff_of_true (fun delivery hdelivery => ?_) fun _ _ _ heq => ?_
      · simp only [ScrollDrive.step, hlane] at hdelivery
        cases hdelivery
      · rw [hlane] at heq
        cases heq
    · have hdelivery : (s.step laneOpen (.deliverLane env)).2 = _ :=
        (h.deliverLane hlane (hfresh sequence scrolled rest hlane)).2
      have hwheel : scrolled.event.isWheel = true :=
        h.lane (sequence, scrolled) (by simp [hlane])
      have hkeys := (h.known scrolled (by simp [hlane])).2.1
      have hcancels : s.Uncrossed keys (.deliverLane env) ↔
          s.receiver.held.keys = scrolled.keys := by
        rw [h.held, hkeys, ← cancels_iff]
        refine ⟨fun hall => hall sequence scrolled rest hlane, fun hone _ other _ heq => ?_⟩
        obtain ⟨hframe, -⟩ := List.cons.inj (heq.symm.trans hlane)
        obtain ⟨-, rfl⟩ := Prod.mk.inj hframe
        exact hone
      rw [hcancels]
      constructor
      · intro hmodified
        exact hmodified _ hdelivery hwheel List.mem_cons_self
      · intro hsame delivery heq _ _
        obtain rfl := Option.some.inj (heq.symm.trans hdelivery)
        exact hsame

end Lined

lemma lined_start (capture : CapturedState) (sequence : UInt64) (receiver : Episode) :
    (start capture sequence receiver).Lined capture.keys := by
  have hheld : (start capture sequence receiver).receiver.held = capture.held :=
    Held.ofInputState_toInputState capture.held
  refine ⟨rfl, rfl, congrArg Held.keys hheld, rfl, fun _ hnone => ?_, fun _ hnone => ?_⟩
  · cases hnone
  · cases hnone

/-! ### Runs -/

end ScrollDrive

end TheKvm

import Mathlib.Data.List.Sort
import TheKvm.Core.Route
import TheKvm.Protocol.Wire

/-!
What a receiver does with one input packet: the filters of its number, the tracked cursor and the
push-through run that asks for the next hop, and the injection.

What the operating system shows is a parameter.
-/

namespace TheKvm

/-! ### Numbers -/

/-- The newest motion accepted so far. -/
structure MotionSequence where
  latest : Option UInt64

/-- `accept`, in serial-number arithmetic. -/
def MotionSequence.accept (m : MotionSequence) (sequence : UInt64) : MotionSequence × Bool :=
  let accepted := m.latest.all fun latest =>
    let distance := sequence - latest
    distance ≠ 0 && distance < (1 : UInt64) <<< 63
  (if accepted then ⟨some sequence⟩ else m, accepted)

/-- What is ahead of the newest motion by less than half of all numbers is accepted. -/
lemma MotionSequence.accept_iff {m : MotionSequence} {sequence : UInt64} :
    (m.accept sequence).2 = true ↔ ∀ latest, m.latest = some latest →
      sequence ≠ latest ∧ (sequence - latest).toNat < 2 ^ 63 := by
  have hhalf : ((1 : UInt64) <<< 63).toNat = 2 ^ 63 := by rfl
  rcases hlatest : m.latest with _ | latest
  · simp [accept, hlatest]
  · simp only [accept, hlatest, Option.all_some, Bool.and_eq_true, decide_eq_true_eq,
      Option.some.injEq, forall_eq', UInt64.lt_iff_toNat_lt, hhalf, Ne,
      UInt64.sub_eq_iff_eq_add, UInt64.zero_add]

structure AppliedMotion where
  first : Option (Int32 × Int32)
  total : ℕ
  zero : ℕ
  sumDx : ℤ
  sumDy : ℤ

def AppliedMotion.record (a : AppliedMotion) (dx dy : Int32) : AppliedMotion where
  first := a.first.or (some (dx, dy))
  total := a.total + 1
  zero := if dx = 0 ∧ dy = 0 then a.zero + 1 else a.zero
  sumDx := a.sumDx + dx.toInt
  sumDy := a.sumDy + dy.toInt

/-! ### Geometry -/

def scaleCoordinate (value sourceSpan targetSpan : ℕ) : ℕ :=
  if sourceSpan ≤ 1 ∨ targetSpan ≤ 1 then 0
  else min value (sourceSpan - 1) * (targetSpan - 1) / (sourceSpan - 1)

def remapPosition (x y : ℕ) (source : Option ScreenGeometry) (target : ScreenGeometry) : ℕ × ℕ :=
  match source.filter fun geometry => 0 < geometry.width ∧ 0 < geometry.height with
  | none => (min x (target.width.toNat - 1), min y (target.height.toNat - 1))
  | some source =>
    (scaleCoordinate x source.width.toNat target.width.toNat,
      scaleCoordinate y source.height.toNat target.height.toNat)

def screenGeometryFor (layout : Layout) (screenId : ScreenId) : Option ScreenGeometry :=
  (layout.screen screenId).map fun screen =>
    ⟨screenId.val, .ofNat screen.width, .ofNat screen.height⟩

/-- Overflow of one motion step past a screen edge. -/
def edgeOverflow (width height x y : ℕ) (dx dy : Int32) : Option (Edge × ℤ) :=
  let nextX : ℤ := x + dx.toInt
  let nextY : ℤ := y + dy.toInt
  if nextX < 0 then some (.left, -nextX)
  else if (width : ℤ) ≤ nextX then some (.right, nextX - ((width - 1 : ℕ) : ℤ))
  else if nextY < 0 then some (.top, -nextY)
  else if (height : ℤ) ≤ nextY then some (.bottom, nextY - ((height - 1 : ℕ) : ℤ))
  else none

/-- What a session reads of its configuration here. -/
structure ReceiverConfig where
  deviceName : String
  layout : Layout
  edgeMode : EdgeMode
  doubleEdgeStyle : DoubleEdgeStyle

/-- What the operating system shows: the session's geometry, whether this desktop receives input,
and the visible pointer. -/
structure OsTruth where
  geometry : Option ScreenGeometry
  desktopReceivesInput : Bool
  cursorPosition : Option (ℕ × ℕ)

/-- The point to re-pin to if the visible pointer is not at the edge. -/
def receiverEdgeTruthVeto (config : ReceiverConfig) (os : OsTruth) (screenId : ScreenId)
    (edge : Edge) : Option (ℕ × ℕ) :=
  match config.layout.screen screenId, os.geometry with
  | some screen, some truthful =>
    if truthful.screenId ≠ screenId.val ∨ 8 < ((screen.width : ℤ) - truthful.width.toNat).natAbs ∨
        8 < ((screen.height : ℤ) - truthful.height.toNat).natAbs then none
    else if os.desktopReceivesInput = false then none
    else match os.cursorPosition with
    | none => none
    | some (truthX, truthY) =>
      if screen.width ≤ truthX ∨ screen.height ≤ truthY then none
      else if distanceFromEdge edge truthX truthY screen.width screen.height ≤ 32 then none
      else some (truthX, truthY)
  | _, _ => none

/-! ### The tracked cursor -/

structure RemoteTracker where
  remoteScreen : Option ScreenId
  remoteCursor : Option (ℕ × ℕ)
  hopEdge : Option Edge
  hopAccum : ℤ

/-- What the block on the tracked cursor comes to. -/
inductive HopOutcome
  /-- the motion is injected -/
  | drive
  | vetoed
  | request (message : WireMessage)
  | failed (error : String)

namespace RemoteTracker

def clearHop (t : RemoteTracker) : RemoteTracker := { t with hopEdge := none, hopAccum := 0 }

def creditHop (t : RemoteTracker) (edge : Edge) (overflow : ℤ) : RemoteTracker :=
  if t.hopEdge = some edge then { t with hopAccum := wrapI64 (t.hopAccum + overflow) }
  else { t with hopEdge := some edge, hopAccum := overflow }

/-- The run after a motion, and `hop_ready`. -/
def pressHop (config : ReceiverConfig) (t : RemoteTracker) (screenId : ScreenId) (x y : ℕ)
    (dx dy : Int32) : RemoteTracker × Bool :=
  match config.layout.screen screenId with
  | none => (t, false)
  | some screen =>
    match edgeOverflow screen.width screen.height x y dx dy with
    | some (edge, overflow) =>
      let t := t.creditHop edge overflow
      (t, edgePushPx ≤ t.hopAccum)
    | none => (t.clearHop, false)

/-- The hop that is asked for, before the visible pointer has its say. -/
def requestHop (config : ReceiverConfig) (t : RemoteTracker) (screenId : ScreenId) (x y : ℕ)
    (dx dy : Int32) : RemoteTracker × Option EdgeHandoff :=
  let (t, hopReady) := t.pressHop config screenId x y dx dy
  if hopReady then
    (t.clearHop, config.layout.handoffForMotion screenId x y dx dy config.edgeMode
      config.doubleEdgeStyle)
  else (t, none)

/-- The tracked cursor never leaves its screen. -/
def pinCursor (config : ReceiverConfig) (t : RemoteTracker) (screenId : ScreenId) (x y : ℕ)
    (dx dy : Int32) : RemoteTracker :=
  match config.layout.screen screenId with
  | none => t
  | some screen =>
    let nextX : ℤ := min (max (x + dx.toInt) 0) ((screen.width - 1 : ℕ) : ℤ)
    let nextY : ℤ := min (max (y + dy.toInt) 0) ((screen.height - 1 : ℕ) : ℤ)
    { t with remoteCursor := some (nextX.toNat, nextY.toNat) }

/-- The frame that hands the cursor on. -/
def handoffRequest (config : ReceiverConfig) (peerGeometry : Option ScreenGeometry)
    (screen : Screen) (x y : ℕ) (dx dy : Int32) (handoff : EdgeHandoff) :
    Except String WireMessage :=
  let nextX : ℤ := x + dx.toInt
  let nextY : ℤ := y + dy.toInt
  let (remainderDx, remainderDy) : Int32 × Int32 := match handoff.edge with
    | .left => (saturatingI32 nextX, 0)
    | .right => (saturatingI32 (nextX - ((screen.width - 1 : ℕ) : ℤ)), 0)
    | .top => (0, saturatingI32 nextY)
    | .bottom => (0, saturatingI32 (nextY - ((screen.height - 1 : ℕ) : ℤ)))
  match screenGeometryFor config.layout handoff.target with
  | none => .error "handoff target screen disappeared"
  | some configured =>
    let targetName := ((config.layout.screen handoff.target).map Screen.name).getD ""
    let (targetX, targetY) := match peerGeometry with
      | some peerGeometry =>
        remapPosition handoff.targetX handoff.targetY (some configured) peerGeometry
      | none => (handoff.targetX, handoff.targetY)
    .ok (.handoffRequest handoff.target.val targetName (.ofNat targetX) (.ofNat targetY)
      remainderDx remainderDy peerGeometry)

/-- A motion on the tracked cursor. -/
def move (config : ReceiverConfig) (os : OsTruth) (peerGeometry : Option ScreenGeometry)
    (t : RemoteTracker) (dx dy : Int32) : RemoteTracker × HopOutcome :=
  match t.remoteScreen, t.remoteCursor with
  | some screenId, some (x, y) =>
    match t.requestHop config screenId x y dx dy with
    | (t, some handoff) =>
      match config.layout.screen screenId with
      | none => (t, .failed "remote pointer screen disappeared during handoff")
      | some screen =>
        match receiverEdgeTruthVeto config os screenId handoff.edge with
        | some truth => ({ t with remoteCursor := some truth }, .vetoed)
        | none =>
          match handoffRequest config peerGeometry screen x y dx dy handoff with
          | .ok message => (t, .request message)
          | .error error => (t, .failed error)
    | (t, none) => (t.pinCursor config screenId x y dx dy, .drive)
  | _, _ => (t, .drive)

end RemoteTracker

/-! ### One packet -/

/-- What `process_remote_input` keeps between packets. -/
structure RemoteInput where
  /-- In ascending order. -/
  seenSequences : List UInt64
  motionSequence : MotionSequence
  tracker : RemoteTracker
  droppedDuplicate : ℕ
  droppedStale : ℕ
  applied : AppliedMotion

/-- `Ok(false)` without an injection, `Ok(true)` after the frame, an error, or an injection. -/
inductive RemoteOutcome
  | ignored
  | request (message : WireMessage)
  | failed (error : String)
  | inject (event : InputEvent)

namespace RemoteInput

def init : RemoteInput :=
  ⟨[], ⟨none⟩, ⟨none, none, none, 0⟩, 0, 0, ⟨none, 0, 0, 0, 0⟩⟩

/-- The smallest numbers past 4096 are forgotten. -/
def trimSeen (seenSequences : List UInt64) : List UInt64 :=
  seenSequences.drop (seenSequences.length - 4096)

/-- An event past the filters. -/
def apply (config : ReceiverConfig) (os : OsTruth) (peerGeometry : Option ScreenGeometry)
    (s : RemoteInput) (event : InputEvent) : RemoteInput × RemoteOutcome :=
  match event with
  | .mouseMove dx dy =>
    match s.tracker.move config os peerGeometry dx dy with
    | (tracker, .drive) =>
      ({ s with tracker, applied := s.applied.record dx dy }, .inject event)
    | (tracker, .vetoed) => ({ s with tracker }, .ignored)
    | (tracker, .request message) => ({ s with tracker }, .request message)
    | (tracker, .failed error) => ({ s with tracker }, .failed error)
  | _ => (s, .inject event)

/-- `process_remote_input`, up to the injector. -/
def process (config : ReceiverConfig) (os : OsTruth) (peerGeometry : Option ScreenGeometry)
    (s : RemoteInput) (packet : InputPacket) : RemoteInput × RemoteOutcome :=
  if packet.sequence ∈ s.seenSequences then
    ({ s with droppedDuplicate := s.droppedDuplicate + 1 }, .ignored)
  else
    let seenSequences := s.seenSequences.orderedInsert (· ≤ ·) packet.sequence
    match packet.event with
    | .mouseMove _ _ =>
      let (motionSequence, accepted) := s.motionSequence.accept packet.sequence
      if accepted then
        { s with seenSequences := trimSeen seenSequences, motionSequence }.apply config os
          peerGeometry packet.event
      else ({ s with seenSequences, droppedStale := s.droppedStale + 1 }, .ignored)
    | _ => { s with seenSequences := trimSeen seenSequences }.apply config os peerGeometry
        packet.event

/-- The filters let a packet through, and its motion does not ask for the next hop. -/
def Admits (config : ReceiverConfig) (os : OsTruth) (peerGeometry : Option ScreenGeometry)
    (s : RemoteInput) (packet : InputPacket) : Prop :=
  packet.sequence ∉ s.seenSequences ∧
    ∀ dx dy, packet.event = .mouseMove dx dy →
      (s.motionSequence.accept packet.sequence).2 = true ∧
        (s.tracker.move config os peerGeometry dx dy).2 = .drive

lemma forall_mouseMove {dx dy : Int32} {P : Int32 → Int32 → Prop} :
    (∀ dx' dy', InputEvent.mouseMove dx dy = .mouseMove dx' dy' → P dx' dy') ↔ P dx dy := by
  refine ⟨fun h => h dx dy rfl, fun h dx' dy' heq => ?_⟩
  obtain ⟨rfl, rfl⟩ := InputEvent.mouseMove.inj heq
  exact h

section

variable {config : ReceiverConfig} {os : OsTruth} {peerGeometry : Option ScreenGeometry}
  {s : RemoteInput}

lemma apply_inject {event : InputEvent} :
    (∃ event', (s.apply config os peerGeometry event).2 = .inject event') ↔
      ∀ dx dy, event = .mouseMove dx dy →
        (s.tracker.move config os peerGeometry dx dy).2 = .drive := by
  cases event with
  | mouseMove dx dy =>
    rw [forall_mouseMove, apply]
    rcases s.tracker.move config os peerGeometry dx dy with ⟨tracker, _ | _ | message | error⟩ <;>
      simp
  | _ => exact iff_of_true ⟨_, rfl⟩ (by simp)

/-- What is injected is the event of the packet. -/
lemma process_event {packet : InputPacket} {event : InputEvent}
    (h : (s.process config os peerGeometry packet).2 = .inject event) : event = packet.event := by
  have happly (s : RemoteInput) (event' : InputEvent)
      (h : (s.apply config os peerGeometry event').2 = .inject event) : event = event' := by
    cases event' with
    | mouseMove dx dy =>
      rw [apply] at h
      rcases hmove : s.tracker.move config os peerGeometry dx dy
        with ⟨tracker, _ | _ | message | error⟩ <;> simp only [hmove] at h <;> cases h
      rfl
    | _ => exact (RemoteOutcome.inject.inj h).symm
  rw [process] at h
  split_ifs at h with hseen
  simp only at h
  split at h
  · split_ifs at h with haccept
    exact happly _ _ h
  · exact happly _ _ h

/-- An admitted packet is injected, and no other. -/
lemma process_inject {packet : InputPacket} :
    (∃ event, (s.process config os peerGeometry packet).2 = .inject event) ↔
      s.Admits config os peerGeometry packet := by
  rw [process, Admits]
  by_cases hseen : packet.sequence ∈ s.seenSequences
  · simp [hseen]
  rw [if_neg hseen, and_iff_right hseen]
  rcases hevent : packet.event with _ | ⟨dx, dy⟩ | _ | _ | _ | _ | _
  case mouseMove =>
    rw [forall_mouseMove]
    rcases haccept : (s.motionSequence.accept packet.sequence).2
    · simp [haccept]
    · simp only [haccept, if_true, true_and]
      rw [apply_inject, forall_mouseMove]
  all_goals
    simp only [apply_inject]
    exact iff_of_true (by simp) (by simp)

end

end RemoteInput

end TheKvm

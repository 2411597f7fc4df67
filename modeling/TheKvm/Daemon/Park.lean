import TheKvm.Daemon.Episode
import TheKvm.Daemon.UdpListener
import TheKvm.Lib.Trace

/-!
A driver that parks and resumes one episode, and the motion of its drives on the stream, on the
motion lane and over UDP.

A frame of the lane and a UDP packet may arrive after the `ReleaseAll` of their drive, and after
the `PointerHandoff` of the next.
-/

namespace TheKvm

/-! ### The driver and the receiver -/

/-- Neither input nor one end of a drive. -/
def WireMessage.isNeutral : WireMessage → Bool
  | .input _ => false
  | .pointerHandoff .. => false
  | .releaseAll => false
  | _ => true

abbrev NeutralMessage := {message : WireMessage // message.isNeutral = true}

/-- One episode. What is under way has the number of the drive it was sent in. -/
structure ParkRun where
  /-- The driver's counter. -/
  sequence : UInt64
  /-- The handoffs and the releases sent. -/
  handoffs : ℕ
  releases : ℕ
  stream : List (ℕ × WireMessage)
  lane : List (ℕ × InputPacket)
  /-- What was sent over UDP, whether it has arrived or not. -/
  udp : List (ℕ × UdpMotionFrame)
  /-- The number the listener forwarded last. -/
  lastSeq : Option UInt64
  sink : List (ℕ × UdpMotionFrame)
  /-- The single-driver slot is free. -/
  free : Bool
  receiver : Option Episode
  /-- The handoffs and the releases handled. -/
  entered : ℕ
  parks : ℕ

inductive ParkOp
  | resume (screenId : UInt32) (targetName : String) (x y : UInt32)
      (screenGeometry : Option ScreenGeometry) (state : InputState)
      (clipboard : List NeutralMessage) (firstEvent : Option InputEvent)
  | park
  /-- a ping, a clipboard or a state sync -/
  | send (message : NeutralMessage)
  | sendStream (event : InputEvent)
  | sendLane (event : InputEvent)
  | sendUdp (dx dy : Int32)
  /-- a number is drawn and its frame is not sent -/
  | skip
  | arriveStream (env : EpisodeEnv)
  | arriveLane (env : EpisodeEnv)
  /-- a packet reaches the listener, late, again or in time -/
  | arriveUdp (index : ℕ)
  /-- the listener drops what it remembers of the key -/
  | forget
  | arriveSink (env : EpisodeEnv)
  /-- another session takes the slot or gives it up -/
  | slot (free : Bool)

/-- What arrived, from which drive, and what was passed on. -/
structure ParkDelivery where
  drive : ℕ
  calls : List InjectorCall

namespace ParkRun

/-- A prewarmed episode. The counter and the listener are older than it. -/
def start (sequence : UInt64) (lastSeq : Option UInt64) (free : Bool)
    (peerScreenGeometry : Option ScreenGeometry) : ParkRun :=
  ⟨sequence, 0, 0, [], [], [], lastSeq, [], free, some (.start peerScreenGeometry), 0, 0⟩

def driving (s : ParkRun) : Bool := s.handoffs = s.releases + 1

def push (s : ParkRun) (message : WireMessage) : ParkRun :=
  { s with stream := s.stream ++ [(s.handoffs, message)] }

def pushInput (s : ParkRun) (event : InputEvent) : ParkRun :=
  { s with sequence := s.sequence + 1 }.push (.input ⟨s.sequence + 1, event⟩)

/-- `resume_parked_session`: the first event rides the stream. -/
def resume (s : ParkRun) (screenId : UInt32) (targetName : String) (x y : UInt32)
    (screenGeometry : Option ScreenGeometry) (state : InputState)
    (clipboard : List NeutralMessage) (firstEvent : Option InputEvent) : ParkRun :=
  let s := { s with handoffs := s.handoffs + 1 }.push
    (.pointerHandoff screenId targetName x y screenGeometry)
  let s := s.push (.stateSync state)
  let s := clipboard.foldl (fun s message => s.push message.val) s
  match firstEvent with
  | none => s
  | some event => s.pushInput event

/-- A frame handled by the receiver. A session that ends lets go of the slot. -/
def arrive (s : ParkRun) (e : Episode) (drive : ℕ) (env : EpisodeEnv) (arm : EpisodeArm) :
    ParkRun × Option ParkDelivery :=
  let (free, handled) := e.handle env s.free arm
  let s := match handled.next with
    | .continues => { s with free, receiver := some handled.episode }
    | _ => { s with free := free || handled.episode.inputPermit, receiver := none }
  (s, some ⟨drive, handled.calls⟩)

def count (s : ParkRun) : WireMessage → ParkRun
  | .pointerHandoff .. => { s with entered := s.entered + 1 }
  | .releaseAll => { s with parks := s.parks + 1 }
  | _ => s

def step (s : ParkRun) : ParkOp → ParkRun × Option ParkDelivery
  | .resume screenId targetName x y screenGeometry state clipboard firstEvent =>
    if s.driving then (s, none)
    else (s.resume screenId targetName x y screenGeometry state clipboard firstEvent, none)
  | .park =>
    if s.driving then ({ s with releases := s.releases + 1 }.push .releaseAll, none) else (s, none)
  | .send message => (s.push message.val, none)
  | .sendStream event => if s.driving then (s.pushInput event, none) else (s, none)
  | .sendLane event =>
    if s.driving then
      ({ s with
          sequence := s.sequence + 1
          lane := s.lane ++ [(s.handoffs, ⟨s.sequence + 1, event⟩)] }, none)
    else (s, none)
  | .sendUdp dx dy =>
    if s.driving then
      ({ s with
          sequence := s.sequence + 1
          udp := s.udp ++ [(s.handoffs, ⟨s.sequence + 1, dx, dy⟩)] }, none)
    else (s, none)
  | .skip => ({ s with sequence := s.sequence + 1 }, none)
  | .arriveStream env =>
    match s.receiver, s.stream with
    | some e, (drive, message) :: stream =>
      ({ s with stream }.count message).arrive e drive env (.stream message)
    | _, _ => (s, none)
  | .arriveLane env =>
    match s.receiver, s.lane with
    | some e, (drive, packet) :: lane => { s with lane }.arrive e drive env (.lane (.input packet))
    | _, _ => (s, none)
  | .arriveUdp index =>
    match s.udp[index]? with
    | none => (s, none)
    | some (drive, frame) =>
      if acceptSequence s.lastSeq frame.sequence then
        -- a full sink drops the motion
        ({ s with
            lastSeq := some frame.sequence
            sink := if s.sink.length < 1024 then s.sink ++ [(drive, frame)] else s.sink }, none)
      else (s, none)
  | .forget => ({ s with lastSeq := none }, none)
  | .arriveSink env =>
    match s.receiver, s.sink with
    | some e, (drive, frame) :: sink =>
      { s with sink }.arrive e drive env (.udp frame.sequence frame.dx frame.dy)
    | _, _ => (s, none)
  | .slot free =>
    if s.receiver.any fun e => e.inputPermit then (s, none) else ({ s with free }, none)

/-- The state after the steps. -/
def after (s : ParkRun) (ops : List ParkOp) : ParkRun := Trace.final step s ops

/-- The receiver has handled a release since the last handoff. -/
def Parked (s : ParkRun) : Prop := 0 < s.parks ∧ s.parks = s.entered

end ParkRun

/-! ### Motion past the fence -/

/-- Some call is a motion. -/
def Moves (calls : List InjectorCall) : Prop :=
  ∃ dx dy, InjectorCall.send (.mouseMove dx dy) ∈ calls

/-- The number of a motion is known or not ahead of the newest motion, or the motion is spent on
the next hop. -/
def RemoteInput.Refuses (config : ReceiverConfig) (os : OsTruth)
    (peerGeometry : Option ScreenGeometry) (s : RemoteInput) (sequence : UInt64)
    (dx dy : Int32) : Prop :=
  sequence ∈ s.seenSequences ∨
    (∃ latest, s.motionSequence.latest = some latest ∧
      (sequence = latest ∨ 2 ^ 63 ≤ (sequence - latest).toNat)) ∨
    (s.tracker.move config os peerGeometry dx dy).2 ≠ .drive

namespace ParkRun

/-- A motion is applied in the drive it was sent in, or in an earlier one, and not while the
receiver is parked. -/
def Fenced (s : ParkRun) (op : ParkOp) : Prop :=
  ∀ delivery, (s.step op).2 = some delivery → Moves delivery.calls →
    ¬s.Parked ∧ s.entered ≤ delivery.drive

/-- A motion of the lane or of UDP that comes after a later handoff is refused, unless the
receiver is parked again or the slot is taken. -/
def Stopped (s : ParkRun) : ParkOp → Prop
  | .arriveLane env => ∀ e drive packet lane, s.receiver = some e →
      s.lane = (drive, packet) :: lane → drive < s.entered → e.remoteIdle = false →
      ∀ dx dy, packet.event = .mouseMove dx dy →
        e.input.Refuses env.config env.os e.peerScreenGeometry packet.sequence dx dy
  | .arriveSink env => ∀ e drive frame sink, s.receiver = some e →
      s.sink = (drive, frame) :: sink → drive < s.entered → e.remoteIdle = false →
      (e.inputPermit || s.free) = true →
        e.input.Refuses env.config env.os e.peerScreenGeometry frame.sequence frame.dx frame.dy
  | _ => True

end ParkRun

/-! ### The receiver -/

lemma RemoteInput.admits_mouseMove {config : ReceiverConfig} {os : OsTruth}
    {peerGeometry : Option ScreenGeometry} {s : RemoteInput} {sequence : UInt64} {dx dy : Int32} :
    s.Admits config os peerGeometry ⟨sequence, .mouseMove dx dy⟩ ↔
      ¬s.Refuses config os peerGeometry sequence dx dy := by
  rw [Admits, forall_mouseMove, MotionSequence.accept_iff, Refuses]
  push Not
  rfl

@[simp] lemma not_moves_nil : ¬Moves [] := by simp [Moves]

namespace Episode

variable (env : EpisodeEnv) (e : Episode)

/-- A packet moves the cursor if it is a motion that is not refused. -/
lemma processPacket_moves (packet : InputPacket) :
    Moves (e.processPacket env packet).calls ↔
      ∃ dx dy, packet.event = .mouseMove dx dy ∧
        ¬e.input.Refuses env.config env.os e.peerScreenGeometry packet.sequence dx dy := by
  simp only [Moves, processPacket_calls, InjectorCall.send.injEq]
  rcases packet with ⟨sequence, event⟩
  constructor
  · rintro ⟨dx, dy, hadmits, rfl⟩
    exact ⟨dx, dy, rfl, RemoteInput.admits_mouseMove.mp hadmits⟩
  · rintro ⟨dx, dy, rfl, hrefuses⟩
    exact ⟨dx, dy, RemoteInput.admits_mouseMove.mpr hrefuses, rfl⟩

lemma mouseMove_notMem_pinchExpansion {event : InputEvent} (hpinch : event.isPinch = true)
    (ctrl held : Bool) (dx dy : Int32) :
    InputEvent.mouseMove dx dy ∉ (pinchExpansion event ctrl held).1 := by
  intro hmem
  cases event with
  | pinchEnd =>
    simp only [pinchExpansion] at hmem
    split_ifs at hmem <;> simp at hmem
  | pinch delta =>
    simp only [pinchExpansion, List.mem_append] at hmem
    rcases hmem with hmem | hmem
    · split_ifs at hmem <;> simp at hmem
    · split_ifs at hmem <;> simp at hmem
  | _ => cases hpinch

/-- A gesture is no motion. -/
lemma processPinch_still {event : InputEvent} (hpinch : event.isPinch = true) :
    ¬Moves (e.processPinch env event).calls := by
  have hcalls : ¬Moves (handleInboundPinch env.pinch e.held e.pinchHeld event).1 := by
    rintro ⟨dx, dy, hmem⟩
    have hevents := mouseMove_notMem_pinchExpansion hpinch (hidLeftCtrl ∈ e.held.keys) e.pinchHeld
      dx dy
    simp only [handleInboundPinch] at hmem
    split at hmem
    · rw [List.mem_singleton, InjectorCall.send.injEq] at hmem
      rw [← hmem] at hpinch
      cases hpinch
    all_goals simp [hevents] at hmem
  rw [processPinch]
  rcases env.injector <;> exact hcalls

lemma processInput_moves (packet : InputPacket) :
    Moves (e.processInput env packet).calls ↔
      ∃ dx dy, packet.event = .mouseMove dx dy ∧
        ¬e.input.Refuses env.config env.os e.peerScreenGeometry packet.sequence dx dy := by
  rw [processInput]
  split
  next hpinch =>
    refine iff_of_false (processPinch_still env e hpinch) ?_
    rintro ⟨dx, dy, hevent, -⟩
    rw [hevent] at hpinch
    cases hpinch
  next => exact processPacket_moves env e packet

lemma sync_still (state : InputState) : ¬Moves (.releaseAll :: state.presses) := by
  rintro ⟨dx, dy, hmem⟩
  simp [InputState.presses] at hmem

lemma enter_still (screenId : UInt32) (targetName : String) (x y : UInt32)
    (screenGeometry : Option ScreenGeometry) :
    ¬Moves (e.enter env screenId targetName x y screenGeometry).calls := by
  rintro ⟨dx, dy, hmem⟩
  obtain ⟨x, y, heq⟩ := e.enter_calls env hmem
  cases heq

/-- On the stream only an input frame moves the cursor. -/
lemma handleStream_still {message : WireMessage} (h : ∀ packet, message ≠ .input packet)
    (free : Bool) : ¬Moves (e.handleStream env free message).2.calls := by
  cases message with
  | input packet => exact absurd rfl (h packet)
  | stateSync state =>
    simp only [handleStream]
    rcases syncState state with error | ⟨⟨⟩⟩
    · exact not_moves_nil
    · rcases env.injector <;> exact sync_still state
  | pointerHandoff screenId targetName x y screenGeometry =>
    simp only [handleStream]
    rcases ({ e with remoteIdle := false } : Episode).claim free with ⟨free, _ | e'⟩
    · exact not_moves_nil
    · exact enter_still env e' screenId targetName x y screenGeometry
  | releaseAll =>
    simp only [handleStream]
    rcases env.injector <;> simp [Moves]
  | _ => exact not_moves_nil

lemma handleStream_neutral {message : WireMessage} (h : message.isNeutral = true) (free : Bool) :
    (e.handleStream env free message).2.episode.remoteIdle = e.remoteIdle := by
  cases message with
  | stateSync state =>
    simp only [handleStream]
    rcases syncState state with error | ⟨⟨⟩⟩
    · rfl
    · rcases env.injector <;> rfl
  | input | pointerHandoff | releaseAll => cases h
  | _ => rfl

/-- A session that goes on after a release is parked. -/
lemma handleStream_releaseAll {free : Bool}
    (h : (e.handleStream env free .releaseAll).2.next = .continues) :
    (e.handleStream env free .releaseAll).2.episode.remoteIdle = true := by
  simp only [handleStream] at h ⊢
  rcases hinjector : env.injector
  · rfl
  all_goals
    simp only [hinjector] at h
    cases h

lemma handleLane_moves (packet : InputPacket) :
    Moves (e.handleLane env (.input packet)).calls ↔
      e.remoteIdle = false ∧ ∃ dx dy, packet.event = .mouseMove dx dy ∧
        ¬e.input.Refuses env.config env.os e.peerScreenGeometry packet.sequence dx dy := by
  rw [handleLane]
  rcases he : e.remoteIdle
  · exact (processInput_moves env e packet).trans (and_iff_right rfl).symm
  · simp [ignore]

lemma handleLane_idle (packet : InputPacket) :
    (e.handleLane env (.input packet)).episode.remoteIdle = e.remoteIdle := by
  rw [handleLane]
  split_ifs
  · rfl
  · exact (processInput_sameTurn env e packet).idle

/-- UDP motion passes the fence and the slot. -/
lemma handlePacket_moves (free : Bool) (sequence : UInt64) (dx dy : Int32) :
    Moves (e.handlePacket env free ⟨sequence, .mouseMove dx dy⟩).2.calls ↔
      e.remoteIdle = false ∧ (e.inputPermit || free) = true ∧
        ¬e.input.Refuses env.config env.os e.peerScreenGeometry sequence dx dy := by
  rw [handlePacket]
  rcases hidle : e.remoteIdle
  · rw [if_neg (by decide), and_iff_right rfl]
    rcases hclaim : e.claim free with ⟨free', _ | e'⟩
    · simp [ignore, (claim_none hclaim).1]
    · obtain ⟨hslot, -, rfl⟩ := claim_some hclaim
      rw [and_iff_right hslot]
      refine (processPacket_moves env _ _).trans ⟨?_, fun h => ⟨dx, dy, rfl, h⟩⟩
      rintro ⟨dx', dy', hevent, h⟩
      obtain ⟨rfl, rfl⟩ := InputEvent.mouseMove.inj hevent
      exact h
  · simp [ignore]

lemma handlePacket_idle (free : Bool) (packet : InputPacket) :
    (e.handlePacket env free packet).2.episode.remoteIdle = e.remoteIdle := by
  rw [handlePacket]
  split_ifs
  · rfl
  rcases hclaim : e.claim free with ⟨free', _ | e'⟩
  · rfl
  · obtain ⟨-, -, rfl⟩ := claim_some hclaim
    exact (processPacket_sameTurn env _ packet).idle

end Episode

/-! ### Order on the stream -/

namespace ParkRun

/-- The handoffs and the releases, with a frame of the stream. Handoffs and releases alternate,
and input belongs to the drive that is on. -/
def mark (n : ℕ × ℕ) (frame : ℕ × WireMessage) : Option (ℕ × ℕ) :=
  match frame.2 with
  | .pointerHandoff .. => if n.1 = n.2 then some (n.1 + 1, n.2) else none
  | .releaseAll => if n.1 = n.2 + 1 then some (n.1, n.2 + 1) else none
  | .input _ => if n.1 = n.2 + 1 ∧ frame.1 = n.1 then some n else none
  | _ => some n

/-- The frames under way lead from what is handled to what was sent, and a parked receiver is
idle. -/
structure InOrder (s : ParkRun) : Prop where
  frames : s.stream.foldlM mark (s.entered, s.parks) = some (s.handoffs, s.releases)
  turn : s.handoffs = s.releases ∨ s.handoffs = s.releases + 1
  idle : ∀ e, s.receiver = some e → s.Parked → e.remoteIdle = true

lemma mark_neutral {message : WireMessage} (h : message.isNeutral = true) (n : ℕ × ℕ)
    (drive : ℕ) : mark n (drive, message) = some n := by
  cases message with
  | input | pointerHandoff | releaseAll => cases h
  | _ => rfl

variable {s : ParkRun} {e : Episode} {drive : ℕ} {env : EpisodeEnv}

/-- A frame counts as it is marked. -/
lemma mark_count {message : WireMessage} {n : ℕ × ℕ}
    (h : mark (s.entered, s.parks) (drive, message) = some n) :
    ((s.count message).entered, (s.count message).parks) = n := by
  cases message with
  | pointerHandoff | releaseAll | input =>
    simp only [mark] at h
    split_ifs at h
    exact Option.some.inj h
  | _ => exact Option.some.inj h

/-- A frame sent at the end of the stream. -/
lemma frames_snoc {l : List (ℕ × WireMessage)} {n m k : ℕ × ℕ} {frame : ℕ × WireMessage}
    (h : l.foldlM mark n = some m) (hmark : mark m frame = some k) :
    (l ++ [frame]).foldlM mark n = some k := by
  rw [List.foldlM_append, h]
  simp [hmark]

/-- The first frame of the stream, and the rest. -/
lemma frames_cons {l : List (ℕ × WireMessage)} {n m : ℕ × ℕ} {frame : ℕ × WireMessage}
    (h : (frame :: l).foldlM mark n = some m) :
    ∃ k, mark n frame = some k ∧ l.foldlM mark k = some m := by
  rw [List.foldlM_cons] at h
  exact Option.bind_eq_some_iff.mp h

/-- A frame handled changes the slot and the session. -/
lemma arrive_spec (s : ParkRun) (e : Episode) (drive : ℕ) (env : EpisodeEnv) (arm : EpisodeArm) :
    (s.arrive e drive env arm).2 = some ⟨drive, (e.handle env s.free arm).2.calls⟩ ∧
      ∃ free receiver, (s.arrive e drive env arm).1 = { s with free, receiver } ∧
        ∀ e', receiver = some e' → (e.handle env s.free arm).2.next = .continues ∧
          e' = (e.handle env s.free arm).2.episode := by
  rw [arrive]
  rcases hhandled : e.handle env s.free arm with ⟨free, episode, calls, sent, next⟩
  refine ⟨rfl, ?_⟩
  cases next with
  | continues => exact ⟨free, some episode, rfl, fun e' he' => ⟨rfl, (Option.some.inj he').symm⟩⟩
  | breaks | fails => exact ⟨_, none, rfl, fun e' he' => nomatch he'⟩

namespace InOrder

lemma push {message : WireMessage} (h : s.InOrder)
    (hmark : mark (s.handoffs, s.releases) (s.handoffs, message) =
      some (s.handoffs, s.releases)) : (s.push message).InOrder :=
  ⟨frames_snoc h.frames hmark, h.turn, h.idle⟩

lemma pushInput (h : s.InOrder) (hdriving : s.handoffs = s.releases + 1) (event : InputEvent) :
    (s.pushInput event).InOrder := by
  refine push (s := { s with sequence := s.sequence + 1 }) ⟨h.frames, h.turn, h.idle⟩ ?_
  simp [mark, hdriving]

lemma arrive {arm : EpisodeArm} (hframes : s.stream.foldlM mark (s.entered, s.parks) =
      some (s.handoffs, s.releases))
    (hturn : s.handoffs = s.releases ∨ s.handoffs = s.releases + 1)
    (hidle : (e.handle env s.free arm).2.next = .continues → s.Parked →
      (e.handle env s.free arm).2.episode.remoteIdle = true) :
    (s.arrive e drive env arm).1.InOrder := by
  obtain ⟨-, free, receiver, heq, hreceiver⟩ := arrive_spec s e drive env arm
  rw [heq]
  refine ⟨hframes, hturn, fun e' he' hparked => ?_⟩
  obtain ⟨hnext, rfl⟩ := hreceiver e' he'
  exact hidle hnext hparked

lemma foldl_push (h : s.InOrder) (hdriving : s.handoffs = s.releases + 1)
    (clipboard : List NeutralMessage) :
    let s' := clipboard.foldl (fun s message => s.push message.val) s
    s'.InOrder ∧ s'.handoffs = s'.releases + 1 := by
  induction clipboard generalizing s with
  | nil => exact ⟨h, hdriving⟩
  | cons message clipboard ih => exact ih (h.push (mark_neutral message.property _ _)) hdriving

lemma resume (h : s.InOrder) (hhome : s.handoffs = s.releases) (screenId : UInt32)
    (targetName : String) (x y : UInt32) (screenGeometry : Option ScreenGeometry)
    (state : InputState) (clipboard : List NeutralMessage) (firstEvent : Option InputEvent) :
    (s.resume screenId targetName x y screenGeometry state clipboard firstEvent).InOrder := by
  have hhandoff : ({ s with handoffs := s.handoffs + 1 }.push
      (.pointerHandoff screenId targetName x y screenGeometry)).InOrder := by
    refine ⟨frames_snoc h.frames ?_, Or.inr (congrArg (· + 1) hhome), h.idle⟩
    exact if_pos hhome
  have hneutral : WireMessage.isNeutral (.stateSync state) = true := rfl
  have hsync := hhandoff.push (mark_neutral hneutral _ _)
  obtain ⟨hinOrder, hdriving⟩ := hsync.foldl_push (congrArg (· + 1) hhome) clipboard
  cases firstEvent with
  | none => exact hinOrder
  | some event => exact hinOrder.pushInput hdriving event

lemma arriveStream (h : s.InOrder) {message : WireMessage} {stream : List (ℕ × WireMessage)}
    (he : s.receiver = some e) (hstream : s.stream = (drive, message) :: stream) :
    (({ s with stream }.count message).arrive e drive env (.stream message)).1.InOrder := by
  have hframes := h.frames
  rw [hstream] at hframes
  obtain ⟨n, hmark, hrest⟩ := frames_cons hframes
  obtain rfl := mark_count (s := { s with stream }) hmark
  cases message with
  | pointerHandoff screenId targetName x y screenGeometry =>
    simp only [mark] at hmark
    split_ifs at hmark with hturn
    refine arrive hrest h.turn fun _ hparked => ?_
    have hparks : s.parks = s.entered + 1 := hparked.2
    omega
  | input packet =>
    simp only [mark] at hmark
    split_ifs at hmark with hturn
    refine arrive hrest h.turn fun _ hparked => ?_
    have hparks : s.parks = s.entered := hparked.2
    omega
  | releaseAll => exact arrive hrest h.turn fun hnext _ => e.handleStream_releaseAll env hnext
  | _ =>
    refine arrive hrest h.turn fun _ hparked => ?_
    refine (e.handleStream_neutral env ?_ _).trans (h.idle e he hparked)
    rfl

/-- The order is kept. -/
lemma step (h : s.InOrder) (op : ParkOp) : (s.step op).1.InOrder := by
  cases op with
  | resume screenId targetName x y screenGeometry state clipboard firstEvent =>
    simp only [ParkRun.step, driving, decide_eq_true_eq]
    split_ifs with hdriving
    · exact h
    · exact h.resume (h.turn.resolve_right hdriving) _ _ _ _ _ _ _ _
  | park =>
    simp only [ParkRun.step, driving, decide_eq_true_eq]
    split_ifs with hdriving
    · exact ⟨frames_snoc h.frames (if_pos hdriving), Or.inl hdriving, h.idle⟩
    · exact h
  | send message => exact h.push (mark_neutral message.property _ _)
  | sendStream event =>
    simp only [ParkRun.step, driving, decide_eq_true_eq]
    split_ifs with hdriving
    · exact h.pushInput hdriving event
    · exact h
  | sendLane event =>
    simp only [ParkRun.step]
    split_ifs
    · exact ⟨h.frames, h.turn, h.idle⟩
    · exact h
  | sendUdp dx dy =>
    simp only [ParkRun.step]
    split_ifs
    · exact ⟨h.frames, h.turn, h.idle⟩
    · exact h
  | skip => exact ⟨h.frames, h.turn, h.idle⟩
  | arriveStream env =>
    simp only [ParkRun.step]
    split
    next he hstream => exact h.arriveStream he hstream
    next => exact h
  | arriveLane env =>
    simp only [ParkRun.step]
    split
    next e drive packet lane he hlane =>
      refine arrive h.frames h.turn fun _ hparked => ?_
      exact (e.handleLane_idle env packet).trans (h.idle e he hparked)
    next => exact h
  | arriveUdp index =>
    simp only [ParkRun.step]
    split
    next => exact h
    next =>
      split_ifs
      · exact ⟨h.frames, h.turn, h.idle⟩
      · exact ⟨h.frames, h.turn, h.idle⟩
      · exact h
  | forget => exact ⟨h.frames, h.turn, h.idle⟩
  | arriveSink env =>
    simp only [ParkRun.step]
    split
    next e drive frame sink he hsink =>
      refine arrive h.frames h.turn fun _ hparked => ?_
      exact (e.handlePacket_idle env _ _).trans (h.idle e he hparked)
    next => exact h
  | slot free =>
    simp only [ParkRun.step]
    split_ifs
    · exact h
    · exact ⟨h.frames, h.turn, h.idle⟩

end InOrder

lemma fenced_of_step {op : ParkOp} {delivery : ParkDelivery}
    (hstep : (s.step op).2 = some delivery) :
    s.Fenced op ↔ (Moves delivery.calls → ¬s.Parked ∧ s.entered ≤ delivery.drive) := by
  refine ⟨fun h => h delivery hstep, fun h delivery' hdelivery => ?_⟩
  obtain rfl := Option.some.inj (hstep.symm.trans hdelivery)
  exact h

lemma fenced_of_quiet {op : ParkOp} (hstep : (s.step op).2 = none) : s.Fenced op := by
  intro delivery hdelivery
  rw [hstep] at hdelivery
  cases hdelivery

/-- The stream is in order, so its motion never is late. -/
lemma InOrder.fenced_stream (h : s.InOrder) (env : EpisodeEnv) : s.Fenced (.arriveStream env) := by
  intro delivery hdelivery hmoves
  simp only [ParkRun.step] at hdelivery
  split at hdelivery
  next e drive message stream he hstream =>
    have hframes := h.frames
    rw [hstream] at hframes
    obtain ⟨n, hmark, -⟩ := frames_cons hframes
    rw [(arrive_spec _ e drive env _).1] at hdelivery
    obtain rfl := Option.some.inj hdelivery
    have hinput : ∃ packet, message = .input packet := by
      by_contra hother
      exact e.handleStream_still env (fun packet heq => hother ⟨packet, heq⟩) _ hmoves
    obtain ⟨packet, rfl⟩ := hinput
    simp only [mark] at hmark
    split_ifs at hmark with hturn
    refine ⟨fun hparked => ?_, hturn.2.ge⟩
    have hparks := hparked.2
    omega
  next => cases hdelivery

/-- The fence holds at a frame unless it is late and is passed on. -/
lemma InOrder.late_iff (h : s.InOrder) {op : ParkOp} {calls : List InjectorCall} {Passes : Prop}
    (he : s.receiver = some e) (hstep : (s.step op).2 = some ⟨drive, calls⟩)
    (hmoves : Moves calls ↔ e.remoteIdle = false ∧ Passes) :
    s.Fenced op ↔ (drive < s.entered → e.remoteIdle = false → ¬Passes) := by
  rw [fenced_of_step hstep, hmoves]
  constructor
  · intro hfenced hlate hidle hpasses
    exact absurd (hfenced ⟨hidle, hpasses⟩).2 (not_le.mpr hlate)
  · rintro hstopped ⟨hidle, hpasses⟩
    refine ⟨fun hparked => ?_, ?_⟩
    · rw [h.idle e he hparked] at hidle
      cases hidle
    · by_contra hlate
      exact hstopped (not_le.mp hlate) hidle hpasses

lemma InOrder.fenced_lane_iff (h : s.InOrder) (env : EpisodeEnv) :
    s.Fenced (.arriveLane env) ↔ s.Stopped (.arriveLane env) := by
  by_cases hhead : ∃ e drive packet lane, s.receiver = some e ∧ s.lane = (drive, packet) :: lane
  · obtain ⟨e, drive, packet, lane, he, hlane⟩ := hhead
    have hstep : (s.step (.arriveLane env)).2 =
        some ⟨drive, (e.handle env s.free (.lane (.input packet))).2.calls⟩ := by
      simp only [ParkRun.step, he, hlane]
      exact (arrive_spec _ e drive env _).1
    rw [h.late_iff he hstep (e.handleLane_moves env packet)]
    constructor
    · intro hfenced e' drive' packet' lane' he' hlane' hlate hidle dx dy hevent
      obtain rfl := Option.some.inj (he.symm.trans he')
      obtain ⟨hframe, -⟩ := List.cons.inj (hlane.symm.trans hlane')
      obtain ⟨rfl, rfl⟩ := Prod.mk.inj hframe
      by_contra hrefuses
      exact hfenced hlate hidle ⟨dx, dy, hevent, hrefuses⟩
    · rintro hstopped hlate hidle ⟨dx, dy, hevent, hrefuses⟩
      exact hrefuses (hstopped e drive packet lane he hlane hlate hidle dx dy hevent)
  · refine iff_of_true (fenced_of_quiet ?_) fun e drive packet lane he hlane => ?_
    · simp only [ParkRun.step]
      split
      next e drive packet lane he hlane =>
        exact absurd ⟨e, drive, packet, lane, he, hlane⟩ hhead
      next => rfl
    · exact absurd ⟨e, drive, packet, lane, he, hlane⟩ hhead

lemma InOrder.fenced_sink_iff (h : s.InOrder) (env : EpisodeEnv) :
    s.Fenced (.arriveSink env) ↔ s.Stopped (.arriveSink env) := by
  by_cases hhead : ∃ e drive frame sink, s.receiver = some e ∧ s.sink = (drive, frame) :: sink
  · obtain ⟨e, drive, frame, sink, he, hsink⟩ := hhead
    have hstep : (s.step (.arriveSink env)).2 = some ⟨drive,
        (e.handle env s.free (.udp frame.sequence frame.dx frame.dy)).2.calls⟩ := by
      simp only [ParkRun.step, he, hsink]
      exact (arrive_spec _ e drive env _).1
    rw [h.late_iff he hstep (e.handlePacket_moves env _ _ _ _)]
    constructor
    · intro hfenced e' drive' frame' sink' he' hsink' hlate hidle hslot
      obtain rfl := Option.some.inj (he.symm.trans he')
      obtain ⟨hframe, -⟩ := List.cons.inj (hsink.symm.trans hsink')
      obtain ⟨rfl, rfl⟩ := Prod.mk.inj hframe
      by_contra hrefuses
      exact hfenced hlate hidle ⟨hslot, hrefuses⟩
    · rintro hstopped hlate hidle ⟨hslot, hrefuses⟩
      exact hrefuses (hstopped e drive frame sink he hsink hlate hidle hslot)
  · refine iff_of_true (fenced_of_quiet ?_) fun e drive frame sink he hsink => ?_
    · simp only [ParkRun.step]
      split
      next e drive frame sink he hsink => exact absurd ⟨e, drive, frame, sink, he, hsink⟩ hhead
      next => rfl
    · exact absurd ⟨e, drive, frame, sink, he, hsink⟩ hhead

/-- A step keeps the fence if and only if it stops late motion. -/
lemma InOrder.fenced_iff (h : s.InOrder) (op : ParkOp) : s.Fenced op ↔ s.Stopped op := by
  cases op with
  | arriveStream env => exact iff_of_true (h.fenced_stream env) trivial
  | arriveLane env => exact h.fenced_lane_iff env
  | arriveSink env => exact h.fenced_sink_iff env
  | arriveUdp index =>
    refine iff_of_true (fenced_of_quiet ?_) trivial
    simp only [ParkRun.step]
    split
    next => rfl
    next => split_ifs <;> rfl
  | send | skip | forget => exact iff_of_true (fenced_of_quiet rfl) trivial
  | _ =>
    refine iff_of_true (fenced_of_quiet ?_) trivial
    simp only [ParkRun.step]
    split_ifs <;> rfl

lemma inOrder_start (sequence : UInt64) (lastSeq : Option UInt64) (free : Bool)
    (peerScreenGeometry : Option ScreenGeometry) :
    (start sequence lastSeq free peerScreenGeometry).InOrder :=
  ⟨rfl, Or.inl rfl, fun _ _ hparked => absurd hparked.1 (lt_irrefl 0)⟩

/-! ### Runs -/

/-- **The park fence**: while the receiver is parked no motion is applied, and none of an earlier
drive is applied after a handoff, in exactly the runs in which every motion of the lane and of
UDP that comes after a later handoff is refused for its number or spent on the next hop. -/
theorem fenced_iff_stopped (sequence : UInt64) (lastSeq : Option UInt64) (free : Bool)
    (peerScreenGeometry : Option ScreenGeometry) (ops : List ParkOp) :
    Trace.Each (fun past op =>
        (after (start sequence lastSeq free peerScreenGeometry) past).Fenced op) ops ↔
      Trace.Each (fun past op =>
        (after (start sequence lastSeq free peerScreenGeometry) past).Stopped op) ops := by
  refine Trace.each_congr fun past op _ => InOrder.fenced_iff ?_ op
  exact Trace.always (I := fun _ (s : ParkRun) => s.InOrder)
    (inOrder_start sequence lastSeq free peerScreenGeometry) fun _ op hinOrder => hinOrder.step op

/-- The receiver of a drive. -/
def deskEnv : EpisodeEnv :=
  ⟨⟨"desk", ⟨[], some ⟨2⟩⟩, .double, .mirror⟩, ⟨some ⟨2, 1920, 1080⟩, true, none⟩, .wheel, .takes⟩

/-- A push onto it. -/
def deskPush : ParkOp := .resume 2 "desk" 0 500 none ⟨[], []⟩ [] (some (.mouseMove 1 0))

/-- A motion of the lane that the next handoff overtakes moves the resumed cursor. -/
theorem parked_motion_resumes : ¬∀ (sequence : UInt64) (lastSeq : Option UInt64) (free : Bool)
    (peerScreenGeometry : Option ScreenGeometry) (ops : List ParkOp),
    Trace.Each (fun past op =>
      (after (start sequence lastSeq free peerScreenGeometry) past).Fenced op) ops := by
  intro h
  have hfenced := h 0 none true none
    [deskPush, .arriveStream deskEnv, .arriveStream deskEnv, .arriveStream deskEnv,
      .sendLane (.mouseMove 7 0), .park, deskPush, .arriveStream deskEnv, .arriveStream deskEnv,
      .arriveStream deskEnv, .arriveLane deskEnv]
  obtain ⟨-, hlast⟩ := Trace.each_snoc (l := [_, _, _, _, _, _, _, _, _, _]).mp hfenced
  have hdrive := (hlast ⟨1, [.send (.mouseMove 7 0)]⟩ (by rfl) ⟨7, 0, List.mem_singleton.mpr rfl⟩).2
  exact absurd hdrive (by decide)

end ParkRun

end TheKvm

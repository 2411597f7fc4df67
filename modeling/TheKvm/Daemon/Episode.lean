import TheKvm.Daemon.Captured
import TheKvm.Daemon.Pinch
import TheKvm.Daemon.RemoteInput

/-!
The receive loop of an inbound episode: the frames of its stream and of its motion lane, the
datagrams and the UDP motion, what they pass on to the injector, and the single-driver slot.

What the injector does with a call, and what the operating system shows, are parameters.
-/

namespace TheKvm

/-! ### The injector -/

inductive InjectorCall
  | send (event : InputEvent)
  | injectPinch (delta : Int32)
  | endPinch
  | releaseAll
  | warpCursor (x y : ℕ)
  deriving DecidableEq

/-- Whether a call passes input on. -/
def InjectorCall.drives : InjectorCall → Bool
  | .send _ | .injectPinch _ | .endPinch => true
  | .releaseAll | .warpCursor _ _ => false

/-- What an injector makes of an event. -/
inductive InjectorOutcome
  | takes
  /-- it fails, is rebuilt and then takes the event -/
  | rebuilds
  | fails

/-- How a machine renders a pinch. -/
inductive PinchRendering
  /-- as a pinch, on Windows -/
  | native
  /-- as a wheel, on Windows with `THEKVM_WHEEL_PINCH` -/
  | wheel
  /-- as a touch elsewhere, and as a wheel when the touch frame is not consumed or there is no
  touch channel -/
  | touch (consumed : Option Bool)

/-- `sync_state`, the check of a reported state. -/
def syncState (state : InputState) : Except String Unit :=
  if 256 < state.pressedKeys.length then
    .error s!"state synchronization contains {state.pressedKeys.length} keys; maximum is 256"
  else if 5 < state.pressedButtons.length then
    .error s!"state synchronization contains {state.pressedButtons.length} buttons; maximum is 5"
  else if ¬state.pressedKeys.Nodup then .error "state synchronization contains duplicate keys"
  else if ¬state.pressedButtons.Nodup then
    .error "state synchronization contains duplicate buttons"
  else .ok ()

/-- The presses of a reported state. -/
def InputState.presses (state : InputState) : List InjectorCall :=
  state.pressedKeys.map (fun usage => .send (.key ⟨usage, true, false⟩)) ++
    state.pressedButtons.map fun button => .send (.mouseButton button true)

/-- `handle_inbound_pinch`, and its hold on Ctrl. -/
def handleInboundPinch (rendering : PinchRendering) (held : Held) (pinchHeld : Bool)
    (event : InputEvent) : List InjectorCall × Bool :=
  let (events, pinchHeld') := pinchExpansion event (hidLeftCtrl ∈ held.keys) pinchHeld
  match rendering, event with
  | .native, _ => ([.send event], pinchHeld)
  | .wheel, _ => (events.map .send, pinchHeld')
  | .touch (some true), .pinch delta => ([.injectPinch delta], pinchHeld)
  | .touch (some false), .pinch delta => (.injectPinch delta :: events.map .send, pinchHeld')
  | .touch none, .pinch _ => (events.map .send, pinchHeld')
  | .touch _, _ => (.endPinch :: events.map .send, pinchHeld')

/-- The keys and buttons after a call. -/
def Held.afterCall (h : Held) : InjectorCall → Held
  | .send event => h.apply event
  | .releaseAll => .empty
  | _ => h

/-! ### A session -/

/-- What a session finds when a frame arrives. -/
structure EpisodeEnv where
  config : ReceiverConfig
  os : OsTruth
  pinch : PinchRendering
  injector : InjectorOutcome

structure Episode where
  remoteIdle : Bool
  /-- It holds the single-driver slot. -/
  inputPermit : Bool
  input : RemoteInput
  pinchHeld : Bool
  held : Held
  peerScreenGeometry : Option ScreenGeometry
  droppedBusy : ℕ

/-- What the loop does after a frame. -/
inductive LoopNext
  | continues
  | breaks
  /-- an error leaves the session -/
  | fails
  deriving DecidableEq

structure Handled where
  episode : Episode
  calls : List InjectorCall
  sent : List WireMessage
  next : LoopNext

namespace Episode

/-- An accepted session. -/
def start (peerScreenGeometry : Option ScreenGeometry) : Episode :=
  ⟨false, false, .init, false, .empty, peerScreenGeometry, 0⟩

/-- A frame that changes nothing. -/
def ignore (e : Episode) : Handled := ⟨e, [], [], .continues⟩

/-- The event of a packet at the injector. -/
def inject (e : Episode) (outcome : InjectorOutcome) (event : InputEvent) : Handled :=
  match outcome with
  | .takes => ⟨{ e with held := e.held.apply event }, [.send event], [], .continues⟩
  | .rebuilds =>
    ⟨{ e with held := Held.empty.apply event }, [.send event, .send event], [], .continues⟩
  | .fails => ⟨e, [.send event], [], .fails⟩

/-- A packet through `process_remote_input`. -/
def processPacket (env : EpisodeEnv) (e : Episode) (packet : InputPacket) : Handled :=
  match e.input.process env.config env.os e.peerScreenGeometry packet with
  | (input, .ignored) => ⟨{ e with input }, [], [], .continues⟩
  | (input, .request message) => ⟨{ e with input }, [], [message], .breaks⟩
  | (input, .failed _) => ⟨{ e with input }, [], [], .fails⟩
  | (input, .inject event) => { e with input }.inject env.injector event

/-- A gesture never reaches `process_remote_input`. -/
def processPinch (env : EpisodeEnv) (e : Episode) (event : InputEvent) : Handled :=
  let (calls, pinchHeld) := handleInboundPinch env.pinch e.held e.pinchHeld event
  match env.injector with
  | .takes => ⟨{ e with pinchHeld, held := calls.foldl Held.afterCall e.held }, calls, [],
      .continues⟩
  | _ =>
    ⟨{ e with pinchHeld }, calls, [],
      if calls.any fun call => call matches .send _ then .fails else .continues⟩

/-- The frame of an event, on the stream and on the lane. -/
def processInput (env : EpisodeEnv) (e : Episode) (packet : InputPacket) : Handled :=
  if packet.event.isPinch then e.processPinch env packet.event else e.processPacket env packet

/-- `try_acquire_owned` on the slot, unless the session has it. -/
def claim (e : Episode) (free : Bool) : Bool × Option Episode :=
  if e.inputPermit then (free, some e)
  else if free then (false, some { e with inputPermit := true })
  else (free, none)

def handoffTarget (config : ReceiverConfig) (screenId : UInt32) (targetName : String) :
    Except String ScreenId :=
  if targetName ≠ "" then
    if targetName ≠ config.deviceName then
      .error s!"peer handed off to '{targetName}', but this node is '{config.deviceName}'"
    else match config.layout.selfScreen with
    | none => .error "handoff accepted by name but no local screen is arranged"
    | some target => .ok target
  else if config.layout.selfScreen ≠ some ⟨screenId⟩ then
    let expected := config.layout.selfScreen.elim "None" fun id => s!"Some(ScreenId({id.val}))"
    .error s!"peer handed off to screen {screenId}, but this node is {expected}"
  else .ok ⟨screenId⟩

/-- The cursor taken over at a handoff. -/
def enter (env : EpisodeEnv) (e : Episode) (screenId : UInt32) (targetName : String)
    (x y : UInt32) (screenGeometry : Option ScreenGeometry) : Handled :=
  match handoffTarget env.config screenId targetName with
  | .error _ => ⟨e, [], [], .fails⟩
  | .ok target =>
    match env.os.geometry.or (screenGeometryFor env.config.layout target) with
    | none => ⟨e, [], [], .fails⟩
    | some truthful =>
      let (x, y) := remapPosition x.toNat y.toNat screenGeometry truthful
      let tracker :=
        { e.input.tracker with remoteScreen := some target, remoteCursor := some (x, y) }
      ⟨{ e with input := { e.input with tracker } }, [.warpCursor x y], [], .continues⟩

/-- A frame of the episode stream, and whether the slot is free after it. -/
def handleStream (env : EpisodeEnv) (e : Episode) (free : Bool) :
    WireMessage → Bool × Handled
  | .stateSync state =>
    (free,
      match syncState state with
      | .error _ => ⟨e, [], [], .fails⟩
      | .ok () =>
        let calls := .releaseAll :: state.presses
        match env.injector with
        | .takes => ⟨{ e with held := calls.foldl Held.afterCall e.held }, calls, [], .continues⟩
        | _ => ⟨e, calls, [], .fails⟩)
  | .input packet => (free, { e with remoteIdle := false }.processInput env packet)
  | .pointerHandoff screenId targetName x y screenGeometry =>
    match { e with remoteIdle := false }.claim free with
    | (free, none) =>
      (free, ⟨{ e with remoteIdle := false }, [],
        [.reject "another input session already controls this node"], .fails⟩)
    | (free, some e) => (free, e.enter env screenId targetName x y screenGeometry)
  | .releaseAll =>
    match env.injector with
    | .takes =>
      (free || e.inputPermit,
        ⟨{ e with remoteIdle := true, inputPermit := false, held := .empty }, [.releaseAll], [],
          .continues⟩)
    | _ => (free, ⟨e, [.releaseAll], [], .fails⟩)
  | .ping nonce => (free, ⟨e, [], [.pong nonce], .continues⟩)
  | _ => (free, e.ignore)

/-- A packet off the stream and the lane: fenced while parked, and let in by the slot. -/
def handlePacket (env : EpisodeEnv) (e : Episode) (free : Bool) (packet : InputPacket) :
    Bool × Handled :=
  if e.remoteIdle then (free, e.ignore)
  else match e.claim free with
  | (free, none) => (free, { e with droppedBusy := e.droppedBusy + 1 }.ignore)
  | (free, some e) => (free, e.processPacket env packet)

/-- A frame of the motion lane. -/
def handleLane (env : EpisodeEnv) (e : Episode) : WireMessage → Handled
  | .input packet => if e.remoteIdle then e.ignore else e.processInput env packet
  | _ => e.ignore

end Episode

/-- What wakes the loop. -/
inductive EpisodeArm
  | stream (message : WireMessage)
  | datagram (packet : InputPacket)
  | udp (sequence : UInt64) (dx dy : Int32)
  | lane (message : WireMessage)
  /-- the stream or the session ends -/
  | finish

def Episode.handle (env : EpisodeEnv) (e : Episode) (free : Bool) : EpisodeArm → Bool × Handled
  | .stream message => e.handleStream env free message
  | .datagram packet => e.handlePacket env free packet
  | .udp sequence dx dy => e.handlePacket env free ⟨sequence, .mouseMove dx dy⟩
  | .lane message => (free, e.handleLane env message)
  | .finish => (free, ⟨e, [], [], .breaks⟩)

/-! ### One packet -/

/-- The fence and the permit are as before. -/
structure Episode.SameTurn (e e' : Episode) : Prop where
  idle : e'.remoteIdle = e.remoteIdle
  permit : e'.inputPermit = e.inputPermit

namespace Episode

variable (env : EpisodeEnv) (e : Episode)

lemma inject_sameTurn (outcome : InjectorOutcome) (event : InputEvent) :
    e.SameTurn (e.inject outcome event).episode := by
  cases outcome <;> exact ⟨rfl, rfl⟩

/-- The injector gets the event once, and again when it is rebuilt. -/
lemma inject_calls (outcome : InjectorOutcome) (event : InputEvent) :
    .send event ∈ (e.inject outcome event).calls ∧
      ∀ call ∈ (e.inject outcome event).calls, call = .send event := by
  cases outcome <;> simp [inject]

lemma processPacket_sameTurn (packet : InputPacket) :
    e.SameTurn (e.processPacket env packet).episode := by
  rw [processPacket]
  rcases e.input.process env.config env.os e.peerScreenGeometry packet
    with ⟨input, _ | message | error | event⟩
  · exact ⟨rfl, rfl⟩
  · exact ⟨rfl, rfl⟩
  · exact ⟨rfl, rfl⟩
  · obtain ⟨hidle, hpermit⟩ := inject_sameTurn { e with input } env.injector event
    exact ⟨hidle, hpermit⟩

/-- An admitted packet reaches the injector, and no other does. -/
lemma processPacket_calls (packet : InputPacket) (call : InjectorCall) :
    call ∈ (e.processPacket env packet).calls ↔
      e.input.Admits env.config env.os e.peerScreenGeometry packet ∧ call = .send packet.event := by
  rw [← RemoteInput.process_inject, processPacket]
  rcases hprocess : e.input.process env.config env.os e.peerScreenGeometry packet
    with ⟨input, _ | message | error | event⟩
  · simp
  · simp
  · simp
  · obtain rfl : event = packet.event := RemoteInput.process_event (congrArg Prod.snd hprocess)
    obtain ⟨hmem, hall⟩ := inject_calls { e with input } env.injector packet.event
    constructor
    · intro hcall
      exact ⟨⟨packet.event, rfl⟩, hall call hcall⟩
    · rintro ⟨-, rfl⟩
      exact hmem

lemma processPinch_sameTurn (event : InputEvent) :
    e.SameTurn (e.processPinch env event).episode := by
  rw [processPinch]
  rcases env.injector <;> exact ⟨rfl, rfl⟩

lemma processInput_sameTurn (packet : InputPacket) :
    e.SameTurn (e.processInput env packet).episode := by
  rw [processInput]
  split
  · exact processPinch_sameTurn env e packet.event
  · exact processPacket_sameTurn env e packet

lemma enter_sameTurn (screenId : UInt32) (targetName : String) (x y : UInt32)
    (screenGeometry : Option ScreenGeometry) :
    e.SameTurn (e.enter env screenId targetName x y screenGeometry).episode := by
  rw [enter]
  rcases handoffTarget env.config screenId targetName with error | target
  · exact ⟨rfl, rfl⟩
  · simp only
    rcases env.os.geometry.or (screenGeometryFor env.config.layout target) with _ | truthful
    · exact ⟨rfl, rfl⟩
    · exact ⟨rfl, rfl⟩

/-- Past the slot a session has the permit, which it had or which was free. -/
lemma claim_some {e e' : Episode} {free free' : Bool} (h : e.claim free = (free', some e')) :
    (e.inputPermit || free) = true ∧ free' = (e.inputPermit && free) ∧
      e' = { e with inputPermit := true } := by
  rw [claim] at h
  split_ifs at h with hpermit hfree
  · obtain ⟨rfl, heq⟩ := Prod.mk.inj h
    obtain rfl := Option.some.inj heq
    refine ⟨by simp [hpermit], by simp [hpermit], ?_⟩
    exact congrArg (fun permit => ({ e with inputPermit := permit } : Episode)) hpermit
  · obtain ⟨rfl, heq⟩ := Prod.mk.inj h
    exact ⟨by simp [hfree], by simp [hpermit], (Option.some.inj heq).symm⟩
  · cases (Prod.mk.inj h).2

lemma claim_none {e : Episode} {free free' : Bool} (h : e.claim free = (free', none)) :
    (e.inputPermit || free) = false ∧ free' = free := by
  rw [claim] at h
  split_ifs at h with hpermit hfree
  · cases (Prod.mk.inj h).2
  · cases (Prod.mk.inj h).2
  · exact ⟨by simp [hpermit, hfree], (Prod.mk.inj h).1.symm⟩

/-- A handoff only places the cursor. -/
lemma enter_calls {screenId : UInt32} {targetName : String} {x y : UInt32}
    {screenGeometry : Option ScreenGeometry} {call : InjectorCall}
    (h : call ∈ (e.enter env screenId targetName x y screenGeometry).calls) :
    ∃ x y, call = .warpCursor x y := by
  rw [enter] at h
  split at h
  · cases h
  · split at h
    · cases h
    · exact ⟨_, _, List.mem_singleton.mp h⟩

end Episode

end TheKvm

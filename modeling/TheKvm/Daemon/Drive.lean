import TheKvm.Lib.Run
import TheKvm.Core.Machine
import TheKvm.Protocol.Config
import TheKvm.Daemon.Barrier
import TheKvm.Daemon.Scroll
import TheKvm.Daemon.WheelDowngrade
import TheKvm.Daemon.RemoteInput
import TheKvm.Daemon.Yield

/-!
The drive loop of `connect_topology`: one turn of its `select!`.

Each turn is handed what the platform and the network answer in it. The bounds on the network calls
are in their answers: a call that runs out of time fails.
-/

namespace TheKvm

/-! ### The loop -/

/-- The capabilities a dial agrees on. -/
structure SessionCapabilities where
  clipboardEnabled : Bool
  smoothScroll : Bool
  pinchZoom : Bool
  udpMotion : Bool
  screenGeometry : Option ScreenGeometry

/-- A drive stream and its episode. Every dial opens a new `stream`. -/
structure TopologySession where
  stream : ℕ
  target : ScreenId
  eventBarrier : UInt64
  clipboardEnabled : Bool
  peerSmooth : Bool
  peerPinch : Bool
  pinchHeld : Bool
  wheelDebt : WheelDowngrade
  udpMotion : Bool
  peerGeometry : Option ScreenGeometry
  lastProgress : Option Instant

structure DriveLoop where
  config : Config
  /-- The fingerprint of the linked peer. -/
  link : Option String
  router : EdgeRouter
  pendingLayout : Option Layout
  active : Option TopologySession
  parked : Option TopologySession
  suppressionRequested : Bool
  discardedEventBarrier : UInt64
  lastTransfer : Option Instant
  lastFailedEpisode : Option Instant
  lastYield : Option Instant
  sendStrikes : ℕ
  sendStallSince : Option Instant
  lastResync : Option Instant
  lastDimsCheck : Option Instant
  lastPeerProgress : Option Instant
  unackedPings : ℕ
  divertBaseline : ℕ
  divertSeen : ℕ
  inboundBaseline : Totals String
  inboundBaselinesFresh : Bool
  lastOutboundInput : Option Instant
  /-- The streams opened so far. -/
  streams : ℕ

/-! ### What a turn is answered -/

/-- Where a turn reads the pointer of the operating system. -/
inductive CursorRead
  | seed | resync | settled | home
  deriving DecidableEq

structure PlatformAnswers where
  now : Instant
  /-- The clock after the network calls of the turn. -/
  later : Instant
  cursor : CursorRead → Option (ℕ × ℕ)
  screenSize : Option (ℕ × ℕ)
  desktopReceivesInput : Bool
  /-- The newest captured event, where a drive ends and where one begins. -/
  lastEventId : UInt64
  openEventId : UInt64
  pressedKeys : List HidUsage
  inboundWhileDriving : ℕ
  inbound : InboundSnapshot

/-- What a parked stream has queued. -/
inductive ParkQueue
  | closed | progress | quiet
  deriving DecidableEq

inductive Dial
  | opened (capabilities : SessionCapabilities)
  /-- The peer has ended the epoch of the link. -/
  | linkEnded
  | failed

structure SendAnswer where
  /-- The motion datagram went out. -/
  udp : Bool
  /-- `false` for a write that ran out of its time. -/
  outcome : Except String Bool
  sentAt : Instant

structure NetworkAnswers where
  associationClosed : Bool
  queued : ParkQueue
  /-- The parked stream answers a `Ping` in time. -/
  pong : Bool
  /-- The frames of a resume go out in time. -/
  resumes : Bool
  dial : Dial
  sends : ℕ → SendAnswer
  /-- The write of this turn goes out: a keep-alive `Ping`, a clipboard change. -/
  writes : Bool

structure RemoteHandoff where
  screenId : UInt32
  targetName : String
  x : UInt32
  y : UInt32
  dx : Int32
  dy : Int32
  screenGeometry : Option ScreenGeometry

/-- What a peer sends on a drive stream. The clipboard frames write the clipboard, or fail to. -/
inductive RemoteSignal
  | handoff (handoff : RemoteHandoff)
  | progress
  | clipboard (applied : Bool)
  | closed

/-- The arms of the `select!`. Motion comes out of the burst fold. -/
inductive DriveArm
  /-- `none` once the channel of the stream is closed -/
  | signal (signal : Option RemoteSignal)
  | captured (captured : CapturedEvent)
  | clipboard
  /-- the parsed `config.json`, when its bytes changed -/
  | configWatch (parsed : Option Config)
  | yieldProbe
  | keepAlive

structure Turn where
  os : PlatformAnswers
  net : NetworkAnswers
  arm : DriveArm

/-! ### Predicates and bounds -/

def scrollLockUsage : HidUsage := 0x47

def isScrollLockPress : InputEvent → Bool
  | .key event => event.usage = scrollLockUsage && event.pressed
  | _ => false

def InputEvent.isMove : InputEvent → Bool
  | .mouseMove _ _ => true
  | _ => false

def transferDebounced (lastTransfer : Option Instant) (now : Instant) : Bool :=
  lastTransfer.any fun since => elapsed now since < Duration.fromMillis 25

def episodeCoolingDown (lastFailedEpisode : Option Instant) (now : Instant) : Bool :=
  lastFailedEpisode.any fun since => elapsed now since < Duration.fromMillis 1000

def yieldCoolingDown (lastYield : Option Instant) (now : Instant) : Bool :=
  lastYield.any fun since => elapsed now since < Duration.fromMillis 200

def driveStarved (unackedPings : ℕ) : Bool := 12 ≤ unackedPings

def sendStallBreaker : ℕ := 30

def sendStallBreakerMs : ℕ := 2000

def stallBreakerTripped (strikes stalledMs : ℕ) : Bool :=
  sendStallBreaker ≤ strikes && sendStallBreakerMs ≤ stalledMs

def divertSettle : Duration := Duration.fromMillis 600

def divertBurstFires (delta : ℕ) (openFor : Duration) : Bool :=
  divertSettle ≤ openFor && inboundYieldMinGrowth ≤ delta

def parkedLiveness : Duration := Duration.fromMillis 6000

def Layout.screenByName (l : Layout) (name : String) : Option Screen :=
  l.screens.find? fun screen => screen.name = name

def handoffIsSingleFling : InputEvent → Bool
  | .mouseMove dx dy => edgePushPx ≤ (dx.toInt.natAbs + dy.toInt.natAbs : ℕ)
  | _ => true

/-- Where the pointer of the operating system really is, when that is too far from the edge. The
reading is the one the settle window ends on. -/
def handoffTruthVeto (router : EdgeRouter) (source : ScreenId) (edge : Edge) (singleFling : Bool)
    (os : PlatformAnswers) : Option (ℕ × ℕ) :=
  if os.desktopReceivesInput then
    match router.layout.screen source, os.cursor .settled with
    | some screen, some (truthX, truthY) =>
      let slack : ℤ := if singleFling then 24 else edgePushPx
      let gap : ℤ := match edge with
        | .left => truthX
        | .right => ((screen.width - 1 : ℕ) : ℤ) - truthX
        | .top => truthY
        | .bottom => ((screen.height - 1 : ℕ) : ℤ) - truthY
      if gap ≤ slack then none else some (truthX, truthY)
    | _, _ => none
  else none

def resyncHomeToTruth (router : EdgeRouter) (os : PlatformAnswers) : EdgeRouter :=
  match os.cursor .home with
  | some (x, y) => router.resyncIfLocal x y
  | none => router

/-- A refused push is stepped 8 pixels inside. -/
def parkInside (router : EdgeRouter) (edge : Edge) : EdgeRouter :=
  let (x, y) := router.cursorPosition
  match edge with
  | .left => (router.placeLocalCursor (x + 8) y).1
  | .right => (router.placeLocalCursor (x - 8) y).1
  | .top => (router.placeLocalCursor x (y + 8)).1
  | .bottom => (router.placeLocalCursor x (y - 8)).1

def adoptPeerGeometry (router : EdgeRouter) (fingerprint : Option String)
    (peerGeometry : Option ScreenGeometry) : EdgeRouter :=
  match fingerprint, peerGeometry with
  | some fingerprint, some geometry =>
    if geometry.width < 2 ∨ geometry.height < 2 then router
    else (router.adoptPeerScreenSize fingerprint geometry.width.toNat geometry.height.toNat).1
  | _, _ => router

/-! ### Sessions -/

namespace TopologySession

/-- `spawn_episode_driver`. -/
def spawn (stream : ℕ) (capabilities : SessionCapabilities) (target : ScreenId)
    (eventBarrier : UInt64) : TopologySession where
  stream
  target
  eventBarrier
  clipboardEnabled := capabilities.clipboardEnabled
  peerSmooth := capabilities.smoothScroll
  peerPinch := capabilities.pinchZoom
  pinchHeld := false
  wheelDebt := .none
  udpMotion := capabilities.udpMotion
  peerGeometry := capabilities.screenGeometry
  lastProgress := none

/-- The first event goes out as this peer takes it. -/
def begin (session : TopologySession) (eventBarrier : UInt64) (firstEvent : Option InputEvent) :
    TopologySession :=
  { session with
    eventBarrier
    wheelDebt := match firstEvent with
      | some event => (outgoingWheelEvent event session.peerSmooth session.wheelDebt).1
      | none => session.wheelDebt }

end TopologySession

namespace DriveLoop

/-! ### Coming home -/

def releaseSuppression (s : DriveLoop) : DriveLoop := { s with suppressionRequested := false }

/-- Events captured up to here belong to the drive that ends. -/
def discard (s : DriveLoop) (os : PlatformAnswers) : DriveLoop :=
  { s with discardedEventBarrier := max s.discardedEventBarrier os.lastEventId }

/-- `restore_local` and the resync after it. -/
def restoreHome (s : DriveLoop) (os : PlatformAnswers) (target : ScreenId) : DriveLoop :=
  { s with router := resyncHomeToTruth (s.router.restoreLocal target).1 os }

/-- What every lost drive runs. -/
def endEpisode (s : DriveLoop) (os : PlatformAnswers) (target : ScreenId) : DriveLoop :=
  (({ s with active := none }.releaseSuppression).discard os).restoreHome os target

/-- A failed send ends the episode, and the park with it. -/
def loseEpisode (s : DriveLoop) (os : PlatformAnswers) (target : ScreenId) : DriveLoop :=
  { s.endEpisode os target with parked := none, lastFailedEpisode := some os.later }

/-- A push that opens no drive. -/
def refuse (s : DriveLoop) (os : PlatformAnswers) (target : ScreenId) (edge : Edge) : DriveLoop :=
  let s := s.restoreHome os target
  { s with router := parkInside s.router edge }

def yieldDriveToInbound (s : DriveLoop) (os : PlatformAnswers) : DriveLoop :=
  match s.active with
  | none => s
  | some session =>
    let s := ({ s with active := none, parked := some session }.releaseSuppression).discard os
    let s := { s with lastTransfer := some os.later, lastYield := some os.later }
    let s := s.restoreHome os session.target
    let (x, y) := s.router.cursorPosition
    { s with router := (s.router.setLocalCursorPosition x y).1 }

/-! ### Opening a drive -/

/-- `take_parked_for`: the park is gone either way. -/
def takeParkedFor (s : DriveLoop) (os : PlatformAnswers) (net : NetworkAnswers)
    (target : ScreenId) : Option TopologySession :=
  s.parked.filter fun session =>
    session.target = target && !net.associationClosed && net.queued ≠ .closed &&
      (net.queued = .progress ||
        session.lastProgress.any (fun since => elapsed os.now since < parkedLiveness) || net.pong)

/-- `resume_parked_session` on the stream taken. -/
def resumeParked (s : DriveLoop) (os : PlatformAnswers) (net : NetworkAnswers) (target : ScreenId)
    (eventBarrier : UInt64) (firstEvent : Option InputEvent) : Option TopologySession :=
  ((s.takeParkedFor os net target).filter fun _ => net.resumes).map
    (·.begin eventBarrier firstEvent)

/-- `open_topology_session`, once the dial went through. -/
def dialed (s : DriveLoop) (capabilities : SessionCapabilities) (target : ScreenId)
    (eventBarrier : UInt64) (firstEvent : Option InputEvent) : TopologySession :=
  (TopologySession.spawn s.streams capabilities target eventBarrier).begin eventBarrier firstEvent

/-- What both ways into a drive do. -/
def drive (s : DriveLoop) (session : TopologySession) : DriveLoop :=
  { s with
    suppressionRequested := true
    lastPeerProgress := none
    unackedPings := 0
    router := adoptPeerGeometry s.router s.link session.peerGeometry
    active := some session }

/-- A crossing of the local pointer drives. -/
def cross (s : DriveLoop) (os : PlatformAnswers) (session : TopologySession) : DriveLoop :=
  { s.drive session with
    lastTransfer := some os.later
    sendStrikes := 0
    sendStallSince := none
    divertBaseline := os.inboundWhileDriving
    inboundBaselinesFresh := false }

/-! ### Signals of the peer -/

/-- The screen a handoff leads to: by name, or by number where it names none. -/
def handoffTarget (s : DriveLoop) (handoff : RemoteHandoff) : Option ScreenId :=
  if handoff.targetName.isEmpty then some ⟨handoff.screenId⟩
  else (s.router.layout.screenByName handoff.targetName).map (·.id)

def handoffEntry (s : DriveLoop) (handoff : RemoteHandoff) (target : ScreenId) : ℕ × ℕ :=
  match s.router.layout.screen target with
  | some screen =>
    remapPosition handoff.x.toNat handoff.y.toNat handoff.screenGeometry
      ⟨target.val, .ofNat screen.width, .ofNat screen.height⟩
  | none => (handoff.x.toNat, handoff.y.toNat)

/-- The router drives `target` for the peer; a stream to it is resumed or dialed. -/
def continueTo (s : DriveLoop) (os : PlatformAnswers) (net : NetworkAnswers) (target : ScreenId)
    (firstEvent : Option InputEvent) : Option DriveLoop :=
  match s.resumeParked os net target os.openEventId firstEvent with
  | some session => some ({ s with parked := none }.drive session)
  | none =>
    let s := { s with parked := none }
    match net.dial with
    | .opened capabilities =>
      some ({ s with streams := s.streams + 1 }.drive
        (s.dialed capabilities target os.openEventId firstEvent))
    | .linkEnded => none
    | .failed => some (s.restoreHome os target)

/-- Where a handoff leads once its own drive is over. -/
def redirect (s : DriveLoop) (os : PlatformAnswers) (net : NetworkAnswers)
    (handoff : RemoteHandoff) : Option DriveLoop :=
  match s.handoffTarget handoff with
  | none => some s
  | some target =>
    if target = s.router.localScreen then
      let (homeX, homeY) := s.router.localCursorPosition
      match s.router.handoffTo os.now target homeX homeY with
      | (_, .error _) => none
      | (router, .ok _) => some { s with router }
    else
      let (x, y) := s.handoffEntry handoff target
      let firstEvent :=
        if handoff.dx ≠ 0 ∨ handoff.dy ≠ 0 then some (InputEvent.mouseMove handoff.dx handoff.dy)
        else none
      match s.router.handoffTo os.now target x y with
      | (_, .error _) => none
      | (router, .ok false) => some { s with router }
      | (router, .ok true) => { s with router }.continueTo os net target firstEvent

/-- A handoff the active peer asks for: the drive on it is over whatever comes of it. -/
def peerHandoff (s : DriveLoop) (os : PlatformAnswers) (net : NetworkAnswers)
    (handoff : RemoteHandoff) : Option DriveLoop :=
  (({ s with active := none }.releaseSuppression).discard os).redirect os net handoff

/-- A signal on the active stream. -/
def activeSignal (s : DriveLoop) (os : PlatformAnswers) (net : NetworkAnswers)
    (session : TopologySession) : Option RemoteSignal → Option DriveLoop
  | some (.handoff handoff) => s.peerHandoff os net handoff
  | some .progress =>
    some { s with
      active := some { session with lastProgress := some os.now }
      lastPeerProgress := some os.now
      unackedPings := 0 }
  | some (.clipboard applied) => if applied then some s else none
  | some .closed | none => some (s.endEpisode os session.target)

/-- A signal on the parked stream. -/
def parkedSignal (s : DriveLoop) (os : PlatformAnswers) (session : TopologySession) :
    Option RemoteSignal → Option DriveLoop
  | some (.handoff _) => some s
  | some .progress => some { s with parked := some { session with lastProgress := some os.now } }
  | some (.clipboard applied) => if applied then some s else none
  | some .closed | none => some { s with parked := none }

/-- With no stream there is nothing to receive from. -/
def receive (s : DriveLoop) (os : PlatformAnswers) (net : NetworkAnswers)
    (signal : Option RemoteSignal) : Option DriveLoop :=
  match s.active, s.parked with
  | some session, _ => s.activeSignal os net session signal
  | none, some session => s.parkedSignal os session signal
  | none, none => some s

/-! ### Captured events -/

/-- Near a crossing edge the pointer is looked up more often. -/
def resyncThrottle (router : EdgeRouter) : Duration :=
  Duration.fromMillis (if router.nearCrossingEdge 64 then 20 else 50)

/-- The router is shown where the pointer is. -/
def resyncTruth (s : DriveLoop) (os : PlatformAnswers) : DriveLoop :=
  if s.lastResync.all fun since => resyncThrottle s.router ≤ elapsed os.now since then
    { s with
      lastResync := some os.now
      router := match os.cursor .resync with
        | some (x, y) => s.router.resyncIfLocal x y
        | none => s.router }
  else s

/-- The router is shown where the edges are. -/
def recheckDims (s : DriveLoop) (os : PlatformAnswers) : DriveLoop :=
  if s.lastDimsCheck.all fun since => Duration.fromMillis 5000 ≤ elapsed os.now since then
    { s with
      lastDimsCheck := some os.now
      router := match os.screenSize, s.router.layout.screen s.router.localScreen with
        | some (width, height), some screen =>
          if (screen.width, screen.height) ≠ (width, height) then
            (s.router.adoptLocalScreenSize width height).1
          else s.router
        | _, _ => s.router }
  else s

/-- What comes before a motion is routed at home. -/
def trackTruth (s : DriveLoop) (os : PlatformAnswers) (event : InputEvent) : DriveLoop :=
  if event.isMove && s.router.currentScreen = s.router.localScreen &&
      s.router.activeRemote.isNone then (s.resyncTruth os).recheckDims os
  else s

/-- ScrollLock holds control at home, or lets it go. -/
def toggleLock (s : DriveLoop) (os : PlatformAnswers) : DriveLoop :=
  if s.router.locked then { s with router := s.router.setLocked false }
  else
    let s := match s.active with
      | some session => s.endEpisode os session.target
      | none => s
    { s with parked := none, router := s.router.setLocked true }

/-- Input injected here since the drive began says that the peer drives back. -/
def drivenBack (s : DriveLoop) (os : PlatformAnswers) : Bool :=
  s.active.isSome &&
    saturatingAdd s.divertBaseline (inboundYieldMinGrowth - 1) < os.inboundWhileDriving &&
    divertSettle ≤ s.lastTransfer.elim 0 (elapsed os.now)

/-- The events one captured event becomes, sent one by one to the peer. -/
def sendEach (s : DriveLoop) (os : PlatformAnswers) (session : TopologySession) :
    List InputEvent → (ℕ → SendAnswer) → DriveLoop
  | [], _ => { s with active := some session }
  | event :: events, sends =>
    let later := fun n => sends (n + 1)
    match outgoingWheelEvent event session.peerSmooth session.wheelDebt with
    | (wheelDebt, none) => s.sendEach os { session with wheelDebt } events later
    | (wheelDebt, some outgoing) =>
      let session := { session with wheelDebt }
      let sent := { s with sendStrikes := 0, sendStallSince := none }
      if session.udpMotion && outgoing.isMove && (sends 0).udp then
        sent.sendEach os session events later
      else match (sends 0).outcome with
        | .ok true => sent.sendEach os session events later
        | .ok false =>
          -- A send that ran out of time is a strike; only a long run of them ends the episode.
          let since := s.sendStallSince.getD (sends 0).sentAt
          let s := { s with sendStrikes := s.sendStrikes + 1, sendStallSince := some since }
          if stallBreakerTripped s.sendStrikes (elapsed (sends 0).sentAt since / 1000000) then
            s.loseEpisode os session.target
          else s.sendEach os session events later
        | .error _ => s.loseEpisode os session.target

def forward (s : DriveLoop) (os : PlatformAnswers) (net : NetworkAnswers) (target : ScreenId)
    (event : InputEvent) : Option DriveLoop :=
  match s.active with
  | none => some (s.restoreHome os target)
  | some session =>
    if session.target ≠ target then none
    else
      let (events, pinchHeld) :=
        pinchForSend (applyReverseScroll event s.config.reverseScroll) session.peerPinch
          (os.pressedKeys.contains hidLeftCtrl) session.pinchHeld
      some ({ s with lastOutboundInput := some os.now }.sendEach os { session with pinchHeld }
        events net.sends)

/-- The router brought control home: the stream is parked. -/
def parkEpisode (s : DriveLoop) (os : PlatformAnswers) : DriveLoop :=
  { s.releaseSuppression.discard os with
    active := none
    parked := s.active.or s.parked
    lastTransfer := some os.later }

/-- The guards of a crossing are passed; a stream is resumed or dialed. -/
def crossTo (s : DriveLoop) (os : PlatformAnswers) (net : NetworkAnswers) (eventId : UInt64)
    (target : ScreenId) (edge : Edge) (event : InputEvent) : Option DriveLoop :=
  match s.resumeParked os net target eventId (some event) with
  | some session => some ({ s with parked := none }.cross os session)
  | none =>
    let s := { s with parked := none }
    if episodeCoolingDown s.lastFailedEpisode os.later then some (s.refuse os target edge)
    else match net.dial with
      | .opened capabilities =>
        some ({ s with streams := s.streams + 1 }.cross os
          (s.dialed capabilities target eventId (some event)))
      | .linkEnded => none
      | .failed =>
        some { s.releaseSuppression.refuse os target edge with lastFailedEpisode := some os.later }

/-- The peer a linked loop may drive. -/
def linkedTo (s : DriveLoop) (target : ScreenId) : Bool :=
  s.link.all fun fingerprint =>
    (s.router.layout.screen target).bind (·.peerFingerprint) = some fingerprint

def handoff (s : DriveLoop) (os : PlatformAnswers) (net : NetworkAnswers) (eventId : UInt64)
    (source target : ScreenId) (edge : Edge) (event : InputEvent) : Option DriveLoop :=
  if s.active.isSome then none
  else if !s.linkedTo target then some (s.refuse os target edge)
  else if transferDebounced s.lastTransfer os.now then some (s.refuse os target edge)
  else if yieldCoolingDown s.lastYield os.now then some (s.refuse os target edge)
  else
    let singleFling := handoffIsSingleFling event
    match handoffTruthVeto s.router source edge singleFling os with
    | some (truthX, truthY) =>
      let s := s.restoreHome os target
      let router := s.router.resyncIfLocal truthX truthY
      some { s with router := if singleFling then parkInside router edge else router }
    | none => s.crossTo os net eventId target edge event

/-- What the router made of an event is carried out. -/
def dispatch (s : DriveLoop) (os : PlatformAnswers) (net : NetworkAnswers) (eventId : UInt64) :
    RoutedEvent → Option DriveLoop
  | .localEvent _ => some s
  | .forward target event => s.forward os net target event
  | .returnHome _ _ _ _ => some (s.parkEpisode os)
  | .handoff source target edge _ _ event => s.handoff os net eventId source target edge event

/-- `handle_topology_event`, with what the router made of the event if it got there. -/
def handleTopologyEvent (s : DriveLoop) (os : PlatformAnswers) (net : NetworkAnswers)
    (captured : CapturedEvent) : Option (DriveLoop × Option RoutedEvent) :=
  let s := s.trackTruth os captured.event
  if isScrollLockPress captured.event then some (s.toggleLock os, none)
  else if s.drivenBack os then some (s.yieldDriveToInbound os, none)
  else match s.router.route os.now captured.event with
    | none => none
    | some (router, routed) =>
      ({ s with router }.dispatch os net captured.eventId routed).map fun s => (s, some routed)

def passesBarrier (s : DriveLoop) (captured : CapturedEvent) : Bool :=
  eventPassesBarrier captured.eventId s.discardedEventBarrier (s.active.map (·.eventBarrier))
    captured.event.isRelease

/-! ### Ticks -/

/-- A change of the local clipboard goes to the active peer. -/
def clipboardChange (s : DriveLoop) (os : PlatformAnswers) (net : NetworkAnswers) : DriveLoop :=
  match s.active.filter (·.clipboardEnabled) with
  | none => s
  | some session => if net.writes then s else s.loseEpisode os session.target

/-- A new placement waits until no drive is active. -/
def applyLayout (s : DriveLoop) : DriveLoop :=
  match s.pendingLayout with
  | none => s
  | some layout =>
    match s.router.setLayout layout with
    | (router, .ok ()) => { s with router, pendingLayout := none }
    | (router, .error _) => { s with router }

def applyLiveTopologyConfig (s : DriveLoop) (parsed : Option Config) : DriveLoop :=
  match parsed with
  | none => s.applyLayout
  | some parsed =>
    let s := { s with
      config := { s.config with
        edgeMode := parsed.edgeMode
        doubleEdgeStyle := parsed.doubleEdgeStyle
        layout := parsed.layout }
      router :=
        let router := if parsed.edgeMode = s.config.edgeMode then s.router
          else s.router.setEdgeMode parsed.edgeMode
        if parsed.doubleEdgeStyle = s.config.doubleEdgeStyle then router
        else router.setDoubleStyle parsed.doubleEdgeStyle
      pendingLayout :=
        if parsed.layout = s.config.layout then s.pendingLayout else some parsed.layout }
    s.applyLayout

/-- The new baseline and the growth over the old one; the first probe of a drive only records. -/
def inboundGrowth (s : DriveLoop) (os : PlatformAnswers) : Totals String × ℕ :=
  if s.inboundBaselinesFresh then inboundInputsGrowth s.inboundBaseline os.inbound.totals
  else (os.inbound.totals, 0)

def probeInboundYield (s : DriveLoop) (os : PlatformAnswers) : DriveLoop :=
  let (baseline, growth) := s.inboundGrowth os
  let s := { s with inboundBaseline := baseline, inboundBaselinesFresh := true }
  let openForMs :=
    s.lastTransfer.elim (2 ^ 64 - 1) fun since => min (elapsed os.now since / 1000000) (2 ^ 64 - 1)
  let outboundHot :=
    s.lastOutboundInput.any fun since => elapsed os.now since < Duration.fromMillis outboundHotMs
  if growth < inboundAbsorbThreshold openForMs outboundHot then s
  else if inboundYieldFires growth (os.inbound.driving ≠ []) then s.yieldDriveToInbound os
  else s

/-- Both probes of an open drive. -/
def probeDrive (s : DriveLoop) (os : PlatformAnswers) : DriveLoop :=
  if s.active.isSome then
    let delta := os.inboundWhileDriving - s.divertSeen
    let s := { s with divertSeen := os.inboundWhileDriving }
    if divertBurstFires delta (s.lastTransfer.elim 0 (elapsed os.now)) then s.yieldDriveToInbound os
    else s.probeInboundYield os
  else s

/-- A `Ping` that went out waits for its `Pong`. -/
def countPing (s : DriveLoop) (net : NetworkAnswers) : DriveLoop :=
  { s with
    unackedPings := if net.writes then min (s.unackedPings + 1) (2 ^ 32 - 1) else s.unackedPings }

/-- The peer is gone: the `Ping` failed, its app fell silent, or it never answers. -/
def peerGone (s : DriveLoop) (os : PlatformAnswers) (net : NetworkAnswers) : Bool :=
  !net.writes ||
    (s.lastPeerProgress.any fun since => Duration.fromMillis 60000 < elapsed os.later since) ||
    driveStarved s.unackedPings

def ping (s : DriveLoop) (os : PlatformAnswers) (net : NetworkAnswers) : DriveLoop :=
  match s.active with
  | some session =>
    let s := s.countPing net
    if s.peerGone os net then { s.endEpisode os session.target with parked := none } else s
  | none => if net.writes then s else { s with parked := none }

/-- The reaper of a hold that outlives its drive. -/
def reap (s : DriveLoop) : DriveLoop :=
  if s.active.isNone then s.releaseSuppression else s

def keepAlive (s : DriveLoop) (os : PlatformAnswers) (net : NetworkAnswers) : DriveLoop :=
  ((s.probeDrive os).ping os net).reap

/-! ### The loop -/

/-- One turn, and what the router made of its event. -/
def step (s : DriveLoop) (turn : Turn) : Option (DriveLoop × Option RoutedEvent) :=
  match turn.arm with
  | .signal signal => (s.receive turn.os turn.net signal).map (·, none)
  | .captured captured =>
    if s.passesBarrier captured then s.handleTopologyEvent turn.os turn.net captured
    else some (s, none)
  | .clipboard => some (s.clipboardChange turn.os turn.net, none)
  | .configWatch parsed => some (s.applyLiveTopologyConfig parsed, none)
  | .yieldProbe => some (s.probeDrive turn.os, none)
  | .keepAlive => some (s.keepAlive turn.os turn.net, none)

/-- The router the loop starts with, measured and seeded: `none` while an arrangement with the
linked peer in it is waited for. -/
def startRouter (config : Config) (link : Option String) (os : PlatformAnswers) :
    Option EdgeRouter :=
  let linked := link.all fun fingerprint =>
    config.layout.screens.any fun screen => screen.peerFingerprint = some fingerprint
  match EdgeRouter.new config.layout with
  | .error _ => none
  | .ok router =>
    if linked then
      let router := (router.setReturnHold 0).setHandoffGrace (Duration.fromMillis 40)
      let router := match os.screenSize with
        | some (width, height) => (router.adoptLocalScreenSize width height).1
        | none => router
      let router := match os.cursor .seed with
        | some (x, y) => (router.setLocalCursorPosition x y).1
        | none => router
      some ((router.setEdgeMode config.edgeMode).setDoubleStyle config.doubleEdgeStyle)
    else none

/-- The stream to the linked peer, opened before the capture starts. -/
def prewarm (router : EdgeRouter) (link : Option String)
    (capabilities : Option SessionCapabilities) : Option TopologySession :=
  match link with
  | none => none
  | some fingerprint =>
    match router.layout.screens.find? fun screen => screen.peerFingerprint = some fingerprint with
    | none => none
    | some screen => capabilities.map fun capabilities => .spawn 0 capabilities screen.id 0

/-- The loop at its first turn. -/
def start (config : Config) (link : Option String) (os : PlatformAnswers)
    (capabilities : Option SessionCapabilities) : Option DriveLoop :=
  (startRouter config link os).map fun router =>
    { config
      link
      router
      pendingLayout := none
      active := none
      parked := prewarm router link capabilities
      suppressionRequested := false
      discardedEventBarrier := 0
      lastTransfer := none
      lastFailedEpisode := none
      lastYield := none
      sendStrikes := 0
      sendStallSince := none
      lastResync := none
      lastDimsCheck := none
      lastPeerProgress := none
      unackedPings := 0
      divertBaseline := 0
      divertSeen := os.inboundWhileDriving
      inboundBaseline := ∅
      inboundBaselinesFresh := true
      lastOutboundInput := none
      streams := 1 }

end DriveLoop

end TheKvm

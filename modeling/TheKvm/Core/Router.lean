import TheKvm.Core.Layout

/-!
The edge router: the stateful side of the layout, which tracks the cursor of the machine
that owns the mouse and decides when control crosses to a peer and when it comes home.

Time is a clock reading handed to each operation, in nanoseconds; one call reads it once.
Operations that the source writes with `&mut self` return the new state with their result,
and `none` stands for a failed `expect`.
-/

namespace TheKvm

abbrev Duration := ℕ
abbrev Instant := ℕ

/-- `Instant::elapsed`, zero for an instant in the future. -/
def elapsed (now since : Instant) : Duration := now - since

def Duration.fromMillis (ms : ℕ) : Duration := ms * 1000000

/-- The value an `i64` holds after an addition or a subtraction in a release build. -/
def wrapI64 (v : ℤ) : ℤ := v.bmod (2 ^ 64)

/-- The source's `RoutedEvent`; its `Local` is `localEvent` here. -/
inductive RoutedEvent
  | localEvent (event : InputEvent)
  | forward (target : ScreenId) (event : InputEvent)
  | handoff (source target : ScreenId) (edge : Edge) (targetX targetY : ℕ) (event : InputEvent)
  | returnHome (source : ScreenId) (edge : Edge) (entryEdge : Option Edge) (armed : Bool)
  deriving DecidableEq

inductive ClampReason
  | locked | noTarget | startupGate | postReturn | pushBudget
  deriving DecidableEq

structure ClampStamp where
  reason : ClampReason
  edge : Edge
  overflowPx : ℤ
  cursorX : ℕ
  cursorY : ℕ
  deriving DecidableEq

structure ResyncReset where
  jumpPx : ℕ
  cursorX : ℕ
  cursorY : ℕ
  deriving DecidableEq

structure EdgeRouter where
  layout : Layout
  localScreen : ScreenId
  currentScreen : ScreenId
  cursorX : ℕ
  cursorY : ℕ
  localCursorX : ℕ
  localCursorY : ℕ
  activeRemote : Option ScreenId
  entryEdge : Option Edge
  returnArmed : Bool
  returnAccum : ℤ
  returnEdge : Option Edge
  returnEdgeAccum : ℤ
  edgeMode : EdgeMode
  doubleStyle : DoubleEdgeStyle
  pushEdge : Option Edge
  pushAccum : ℤ
  returnHold : Duration
  returnRunSince : Option Instant
  handoffGrace : Duration
  handoffAt : Option Instant
  locked : Bool
  startupGate : Bool
  postReturnEdge : Option Edge
  postReturnAt : Option Instant
  lastClamp : Option ClampStamp
  lastResyncReset : Option ResyncReset
  deriving DecidableEq

/-- `{:?}` of an optional screen id. -/
def debugRemote : Option ScreenId → String
  | none => "None"
  | some id => "Some(" ++ id.debug ++ ")"

namespace EdgeRouter

def new (layout : Layout) : Except String EdgeRouter :=
  match layout.validate with
  | .error message => .error message
  | .ok () =>
    match layout.selfScreen.or (layout.screens.head?.map (·.id)) with
    | none => .error "layout has no local screen"
    | some currentScreen =>
      match layout.screen currentScreen with
      | none => .error "local screen is missing from layout"
      | some screen => .ok
          { layout
            localScreen := currentScreen
            currentScreen
            cursorX := screen.width / 2
            cursorY := screen.height / 2
            localCursorX := screen.width / 2
            localCursorY := screen.height / 2
            activeRemote := none
            entryEdge := none
            returnArmed := false
            returnAccum := 0
            returnEdge := none
            returnEdgeAccum := 0
            edgeMode := .double
            doubleStyle := .mirror
            pushEdge := none
            pushAccum := 0
            returnHold := 0
            returnRunSince := none
            handoffGrace := 0
            handoffAt := none
            locked := false
            startupGate := false
            postReturnEdge := none
            postReturnAt := none
            lastClamp := none
            lastResyncReset := none }

/-! ### Settings -/

def setReturnHold (r : EdgeRouter) (hold : Duration) : EdgeRouter := { r with returnHold := hold }

def setHandoffGrace (r : EdgeRouter) (grace : Duration) : EdgeRouter :=
  { r with handoffGrace := grace }

def setLocked (r : EdgeRouter) (locked : Bool) : EdgeRouter := { r with locked }

def setEdgeMode (r : EdgeRouter) (mode : EdgeMode) : EdgeRouter := { r with edgeMode := mode }

def setDoubleStyle (r : EdgeRouter) (style : DoubleEdgeStyle) : EdgeRouter :=
  { r with doubleStyle := style }

/-! ### Queries -/

def inHandoffGrace (r : EdgeRouter) (now : Instant) : Bool :=
  r.handoffGrace ≠ 0 && r.handoffAt.any fun since => elapsed now since < r.handoffGrace

def postReturnHolds (r : EdgeRouter) (now : Instant) : Bool :=
  r.postReturnAt.any fun since => elapsed now since < Duration.fromMillis postReturnHoldMs

def fixedReturnEdge (r : EdgeRouter) : Option Edge :=
  match r.doubleStyle with
  | .mirror => none
  | .fixedLeft => some .left
  | .fixedRight => some .right

def crossingTarget (r : EdgeRouter) (me : ScreenId) (edge : Edge) : Option ScreenId :=
  r.layout.crossingTargetFor me edge r.edgeMode

def cursorPosition (r : EdgeRouter) : ℕ × ℕ := (r.cursorX, r.cursorY)

def localCursorPosition (r : EdgeRouter) : ℕ × ℕ := (r.localCursorX, r.localCursorY)

/-- Whether the cursor is within `marginPx` of an edge that would open a crossing. -/
def nearCrossingEdge (r : EdgeRouter) (marginPx : ℤ) : Bool :=
  if r.activeRemote.isSome || r.currentScreen ≠ r.localScreen || r.locked then false
  else match r.layout.screen r.currentScreen with
    | none => false
    | some screen =>
      let distances : List (Edge × ℤ) :=
        [(.left, r.cursorX), (.right, ((screen.width - 1 : ℕ) : ℤ) - r.cursorX),
          (.top, r.cursorY), (.bottom, ((screen.height - 1 : ℕ) : ℤ) - r.cursorY)]
      distances.any fun (edge, distance) =>
        distance ≤ marginPx && (r.crossingTarget r.currentScreen edge).isSome

/-! ### Arrangement, seeding and truth -/

/-- A screen that survives an edit keeps its measured size. -/
def carrySize (old : Layout) (screen : Screen) : Screen :=
  match old.screen screen.id with
  | some oldScreen => screen.resize oldScreen.width oldScreen.height
  | none => screen

def setLayout (r : EdgeRouter) (layout : Layout) : EdgeRouter × Except String Unit :=
  match layout.validate with
  | .error message => (r, .error message)
  | .ok () =>
    if r.activeRemote.isSome then (r, .error "a drive is active")
    else if (layout.screen r.localScreen).isNone then
      (r, .error "new layout does not contain this computer's screen")
    else
      let layout := { layout with screens := layout.screens.map (carrySize r.layout) }
      let r := { r with layout, currentScreen := r.localScreen }
      match layout.screen r.localScreen with
      | none => (r, .error "local screen is missing from the new layout")
      | some screen =>
        let cursorX := min r.cursorX (screen.width - 1)
        let cursorY := min r.cursorY (screen.height - 1)
        ({ r with
            cursorX, cursorY, localCursorX := cursorX, localCursorY := cursorY,
            entryEdge := none, returnArmed := false, returnAccum := 0, returnEdge := none,
            returnEdgeAccum := 0, pushEdge := none, pushAccum := 0, postReturnEdge := none,
            postReturnAt := none }, .ok ())

def seedPosition (r : EdgeRouter) (x y : ℕ) (applyGate : Bool) :
    EdgeRouter × Except String Unit :=
  if r.activeRemote.isSome then
    (r, .error "cannot seed cursor while a remote screen is active")
  else match r.layout.screen r.localScreen with
    | none => (r, .error "local screen is missing from layout")
    | some screen =>
      let cursorX := min x (screen.width - 1)
      let cursorY := min y (screen.height - 1)
      let startupGate := applyGate &&
        [Edge.left, .right, .top, .bottom].any fun edge =>
          (r.crossingTarget r.localScreen edge).isSome &&
            (distanceFromEdge edge cursorX cursorY screen.width screen.height : ℤ) < edgePushPx
      ({ r with
          cursorX, cursorY, localCursorX := cursorX, localCursorY := cursorY,
          pushEdge := none, pushAccum := 0, lastClamp := none, lastResyncReset := none,
          postReturnEdge := none, postReturnAt := none, startupGate }, .ok ())

def setLocalCursorPosition (r : EdgeRouter) (x y : ℕ) : EdgeRouter × Except String Unit :=
  r.seedPosition x y true

def placeLocalCursor (r : EdgeRouter) (x y : ℕ) : EdgeRouter × Except String Unit :=
  r.seedPosition x y false

/-- `u32::abs_diff`. -/
def absDiff (a b : ℕ) : ℕ := max a b - min a b

def resyncIfLocal (r : EdgeRouter) (x y : ℕ) : EdgeRouter :=
  if r.activeRemote.isSome || r.currentScreen ≠ r.localScreen then r
  else match r.layout.screen r.localScreen with
    | none => r
    | some screen =>
      let pinnedX := min x (screen.width - 1)
      let pinnedY := min y (screen.height - 1)
      let moved := max (absDiff pinnedX r.cursorX) (absDiff pinnedY r.cursorY)
      let before edge := distanceFromEdge edge r.cursorX r.cursorY screen.width screen.height
      let after edge := distanceFromEdge edge pinnedX pinnedY screen.width screen.height
      let r := { r with
        cursorX := pinnedX, cursorY := pinnedY, localCursorX := pinnedX, localCursorY := pinnedY }
      if resyncDivergePx < moved then
        let r := if r.pushEdge.isSome && r.pushAccum ≠ 0 then
          { r with lastResyncReset := some ⟨moved, r.cursorX, r.cursorY⟩ } else r
        match r.pushEdge with
        | none => r
        | some edge =>
          let pushAccum := wrapI64 (r.pushAccum - ((after edge - before edge : ℕ) : ℤ))
          if pushAccum ≤ 0 then { r with pushEdge := none, pushAccum := 0 }
          else { r with pushAccum }
      else r

def adoptLocalScreenSize (r : EdgeRouter) (width height : ℕ) : EdgeRouter × Option (ℕ × ℕ) :=
  match r.layout.setScreenSize r.localScreen width height with
  | (_, false) => (r, none)
  | (layout, true) =>
    match layout.screen r.localScreen with
    | none => (r, none)
    | some screen =>
      ({ r with
          layout
          cursorX := min r.cursorX (screen.width - 1)
          cursorY := min r.cursorY (screen.height - 1)
          localCursorX := min r.localCursorX (screen.width - 1)
          localCursorY := min r.localCursorY (screen.height - 1)
          pushEdge := none
          pushAccum := 0 }, some (screen.width, screen.height))

def adoptPeerScreenSize (r : EdgeRouter) (fingerprint : String) (width height : ℕ) :
    EdgeRouter × Option (ℕ × ℕ) :=
  match r.layout.screens.find? fun screen => screen.peerFingerprint = some fingerprint with
  | none => (r, none)
  | some peer =>
    match r.layout.setScreenSize peer.id width height with
    | (_, false) => (r, none)
    | (layout, true) =>
      match layout.screen peer.id with
      | none => (r, none)
      | some screen =>
        let r := if r.currentScreen = peer.id then
          { r with
            cursorX := min r.cursorX (screen.width - 1)
            cursorY := min r.cursorY (screen.height - 1) } else r
        ({ r with
            layout, pushEdge := none, pushAccum := 0, returnAccum := 0, returnEdge := none,
            returnEdgeAccum := 0, returnRunSince := none }, some (screen.width, screen.height))

end EdgeRouter

end TheKvm

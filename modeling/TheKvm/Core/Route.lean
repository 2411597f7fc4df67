import TheKvm.Core.Router

/-!
Routing one event, and the ways control comes home.

`route` is cut where the source comments cut it: driving a remote (roaming inside, pressing
a home-facing edge, pressing the edge of entry) and local (inside, clamped, crossing).
-/

namespace TheKvm

namespace EdgeRouter

/-! ### Coming home -/

/-- The tail every way home shares. -/
def clearDrive (r : EdgeRouter) : EdgeRouter :=
  { r with
    activeRemote := none, entryEdge := none, returnArmed := false, pushEdge := none,
    pushAccum := 0, returnEdge := none, returnEdgeAccum := 0, returnRunSince := none }

/-- The local screen becomes current, with both cursors at `(x, y)`. -/
def landLocal (r : EdgeRouter) (x y : ℕ) : EdgeRouter :=
  { r with
    currentScreen := r.localScreen, cursorX := x, cursorY := y, localCursorX := x,
    localCursorY := y }

def returnToLocal (r : EdgeRouter) (source : ScreenId) (x y : ℕ) :
    EdgeRouter × Except String Unit :=
  if r.activeRemote ≠ some source then
    (r, .error ("cannot return control from " ++ source.debug ++ "; active remote is " ++
      debugRemote r.activeRemote))
  else match r.layout.screen r.localScreen with
    | none => (r, .error "local screen is missing from layout")
    | some screen =>
      ((r.landLocal (min x (screen.width - 1)) (min y (screen.height - 1))).clearDrive, .ok ())

/-- The local edge a return lands at: mirrored on a horizontal edge of a double mirror
link, the same edge otherwise. -/
def landingEdge (r : EdgeRouter) (edge : Edge) : Edge :=
  if r.edgeMode = .double ∧ r.doubleStyle = .mirror ∧ edge.horizontal then edge.opposite
  else edge

def restoreLocalAtEdge (r : EdgeRouter) (now : Instant) (source : ScreenId) (edge : Edge) :
    EdgeRouter × Except String (ℕ × ℕ) :=
  if r.activeRemote ≠ some source then
    (r, .error ("cannot restore control from " ++ source.debug ++ "; active remote is " ++
      debugRemote r.activeRemote))
  else match r.layout.screen r.localScreen with
    | none => (r, .error "local screen is missing from layout")
    | some screen =>
      let width := screen.width
      let height := screen.height
      let (remoteWidth, remoteHeight) := match r.layout.screen source with
        | some remote => (remote.width, remote.height)
        | none => (width, height)
      let landing := r.landingEdge edge
      let (x, y) := match landing with
        | .left => (returnInsetPx, mapCoordinate r.cursorY remoteHeight height)
        | .right => (width - 1 - returnInsetPx, mapCoordinate r.cursorY remoteHeight height)
        | .top => (mapCoordinate r.cursorX remoteWidth width, returnInsetPx)
        | .bottom => (mapCoordinate r.cursorX remoteWidth width, height - 1 - returnInsetPx)
      let r := (r.landLocal (min x (width - 1)) (min y (height - 1))).clearDrive
      ({ r with postReturnEdge := some landing, postReturnAt := some now },
        .ok (r.cursorX, r.cursorY))

def restoreLocal (r : EdgeRouter) (source : ScreenId) : EdgeRouter × Except String (ℕ × ℕ) :=
  if r.activeRemote ≠ some source then
    (r, .error ("cannot restore control from " ++ source.debug ++ "; active remote is " ++
      debugRemote r.activeRemote))
  else match r.layout.screen r.localScreen with
    | none => (r, .error "local screen is missing from layout")
    | some screen =>
      let remoteHeight := match r.layout.screen source with
        | some remote => remote.height
        | none => screen.height
      let mappedY := mapCoordinate r.cursorY remoteHeight screen.height
      let r := (r.landLocal (min r.localCursorX (screen.width - 1))
        (min mappedY (screen.height - 1))).clearDrive
      ({ r with postReturnEdge := none, postReturnAt := none }, .ok (r.cursorX, r.cursorY))

/-- A handoff request of the active peer; `true` when it drives a remote. -/
def handoffTo (r : EdgeRouter) (now : Instant) (target : ScreenId) (x y : ℕ) :
    EdgeRouter × Except String Bool :=
  match r.layout.screen target with
  | none => (r, .error ("handoff target " ++ target.debug ++ " is not in the layout"))
  | some targetScreen =>
    let cursorX := min x (targetScreen.width - 1)
    let cursorY := min y (targetScreen.height - 1)
    if r.localScreen = target then
      ({ (r.landLocal cursorX cursorY).clearDrive with
          postReturnEdge := none, postReturnAt := none }, .ok false)
    else
      let r := if r.currentScreen = r.localScreen then
        { r with localCursorX := r.cursorX, localCursorY := r.cursorY } else r
      ({ r with
          currentScreen := target, cursorX, cursorY, activeRemote := some target,
          entryEdge := none, returnArmed := true, returnEdge := none, returnEdgeAccum := 0,
          returnRunSince := none, postReturnEdge := none, postReturnAt := none,
          handoffAt := some now }, .ok true)

/-! ### Routing while a remote is driven -/

/-- The run of overflow past a home-facing edge is forgotten. -/
def clearReturnRun (r : EdgeRouter) : EdgeRouter :=
  { r with returnAccum := 0, returnEdge := none, returnEdgeAccum := 0, returnRunSince := none }

/-- How far a step that overflows `edge` lands past it. -/
def overflowPast (edge : Edge) (nextX nextY : ℤ) (width height : ℕ) : ℤ :=
  match edge with
  | .left => -nextX
  | .right => nextX - (width - 1)
  | .top => -nextY
  | .bottom => nextY - (height - 1)

/-- Motion that stays inside the driven screen. -/
def roam (r : EdgeRouter) (remote : Screen) (nextX nextY : ℤ) : EdgeRouter :=
  let r := { r with cursorX := nextX.toNat, cursorY := nextY.toNat }
  let inward edge := distanceFromEdge edge r.cursorX r.cursorY remote.width remote.height
  let activeReturnEdge := r.returnEdge.or r.entryEdge
  let r := if activeReturnEdge.all fun edge => 2 < inward edge then r.clearReturnRun else r
  if !r.returnArmed && r.entryEdge.any fun entry => settlePx ≤ inward entry then
    { r with returnArmed := true }
  else r

/-- Both axes clamped to a screen. -/
def pinTo (r : EdgeRouter) (nextX nextY : ℤ) (width height : ℕ) : EdgeRouter :=
  { r with
    cursorX := (min (max nextX 0) (width - 1)).toNat
    cursorY := (min (max nextY 0) (height - 1)).toNat }

/-- Whether overflow past `edge` of the driven screen faces home. -/
def facesHome (r : EdgeRouter) (source : ScreenId) (edge : Edge) : Bool :=
  let loneDoubleHorizontal := r.edgeMode = .double && edge.horizontal &&
    source ≠ r.localScreen && r.layout.singlePeerScreen.isSome
  match r.fixedReturnEdge with
  | some fixed => edge = fixed
  | none => r.layout.neighborForEdge source edge = some r.localScreen || loneDoubleHorizontal

/-- One overflow past a home-facing edge that is not the disarmed edge of entry, credited
to the run on that edge. -/
def creditReturn (r : EdgeRouter) (now : Instant) (edge : Edge) (overflow : ℤ) : EdgeRouter :=
  let credit := if r.returnArmed then overflow else min overflow (returnPushPx - 1)
  if r.returnEdge = some edge then
    { r with returnEdgeAccum := wrapI64 (r.returnEdgeAccum + credit) }
  else
    { r with returnEdge := some edge, returnEdgeAccum := credit, returnRunSince := some now }

/-- Whether the run credited so far brings control home. -/
def returnFires (r : EdgeRouter) (now : Instant) : Bool :=
  let held := r.returnHold = 0 || r.returnRunSince.any fun since => r.returnHold ≤ elapsed now since
  let threshold := if r.returnArmed then returnEdgePx else returnPushPx
  threshold ≤ r.returnEdgeAccum && held && !r.inHandoffGrace now

/-- Control comes home; the event carries the state from before. -/
def comeHome (r : EdgeRouter) (now : Instant) (source target : ScreenId) (edge : Edge) :
    EdgeRouter × RoutedEvent :=
  ((r.restoreLocalAtEdge now target edge).1,
    .returnHome source edge r.entryEdge r.returnArmed)

/-- Motion that overflows an edge of the driven screen. -/
def press (r : EdgeRouter) (now : Instant) (source target : ScreenId) (remote : Screen)
    (edge : Edge) (nextX nextY : ℤ) (event : InputEvent) : EdgeRouter × RoutedEvent :=
  let unarmedEntry := r.entryEdge = some edge && !r.returnArmed
  let overflow := max (overflowPast edge nextX nextY remote.width remote.height) 0
  if r.facesHome source edge && !unarmedEntry then
    let r := r.creditReturn now edge overflow
    if r.returnFires now then r.comeHome now source target edge
    else (r.pinTo nextX nextY remote.width remote.height, .forward target event)
  else if r.facesHome source edge then
    -- The disarmed edge of entry: only a deep, sustained shove escapes through it.
    let r := { r with returnAccum := wrapI64 (r.returnAccum + overflow) }
    if returnPushPx ≤ r.returnAccum && !r.inHandoffGrace now then
      r.comeHome now source target edge
    else (r.pinTo nextX nextY remote.width remote.height, .forward target event)
  else
    (r.clearReturnRun.pinTo nextX nextY remote.width remote.height, .forward target event)

def routeDriving (r : EdgeRouter) (now : Instant) (target : ScreenId) (event : InputEvent) :
    EdgeRouter × RoutedEvent :=
  match event with
  | .mouseMove dx dy =>
    let source := r.currentScreen
    match r.layout.screen source with
    | none => (r, .forward target event)
    | some remote =>
      let nextX : ℤ := r.cursorX + dx.toInt
      let nextY : ℤ := r.cursorY + dy.toInt
      let edge : Option Edge :=
        if nextX < 0 then some .left
        else if (remote.width : ℤ) ≤ nextX then some .right
        else if nextY < 0 then some .top
        else if (remote.height : ℤ) ≤ nextY then some .bottom
        else none
      match edge with
      | none => (r.roam remote nextX nextY, .forward target event)
      | some edge => r.press now source target remote edge nextX nextY event
  | _ => (r, .forward target event)

/-! ### Routing while control is local -/

/-- An outward run of the local cursor is forgotten. -/
def clearPush (r : EdgeRouter) : EdgeRouter := { r with pushEdge := none, pushAccum := 0 }

/-- Clamp a motion into the current screen and stamp why it did not cross. -/
def clampToEdge (r : EdgeRouter) (nextX nextY : ℤ) (width height : ℕ) (reason : ClampReason) :
    EdgeRouter × RoutedEvent :=
  let clampedX : ℤ := min (max nextX 0) (width - 1)
  let clampedY : ℤ := min (max nextY 0) (height - 1)
  let cursorX := clampedX.toNat
  let cursorY := clampedY.toNat
  let edge := (edgeForOverflow nextX nextY width height).getD .left
  let overflowPx := max (overflowPast edge nextX nextY width height) 0
  ({ r with
      cursorX, cursorY, localCursorX := cursorX, localCursorY := cursorY,
      lastClamp := some ⟨reason, edge, overflowPx, cursorX, cursorY⟩ },
    .localEvent (.mouseMove (saturatingI32 (clampedX - r.cursorX))
      (saturatingI32 (clampedY - r.cursorY))))

/-- Motion that stays inside the local screen. -/
def moveInside (r : EdgeRouter) (screen : Screen) (nextX nextY : ℤ) : EdgeRouter :=
  let r := { r with
    cursorX := nextX.toNat, cursorY := nextY.toNat
    localCursorX := nextX.toNat, localCursorY := nextY.toNat }
  let inward edge := distanceFromEdge edge r.cursorX r.cursorY screen.width screen.height
  let r := if r.pushEdge.all fun edge => 2 < inward edge then r.clearPush else r
  let r := if r.postReturnEdge.any fun suppressed => postReturnClearPx ≤ inward suppressed then
    { r with postReturnEdge := none, postReturnAt := none } else r
  if r.nearCrossingEdge edgePushPx then r else { r with startupGate := false }

/-- What one overflow past `edge` adds to the outward run: all of it from close to the
edge, less than a crossing's worth from further inside. -/
def pushCredit (r : EdgeRouter) (screen : Screen) (edge : Edge) (overflow : ℤ) : ℤ :=
  if distanceFromEdge edge r.cursorX r.cursorY screen.width screen.height ≤ phantomStartGuardPx
  then overflow
  else min overflow (edgePushPx - 1)

def creditPush (r : EdgeRouter) (screen : Screen) (edge : Edge) (overflow : ℤ) : EdgeRouter :=
  let credit := r.pushCredit screen edge overflow
  if r.pushEdge = some edge then { r with pushAccum := wrapI64 (r.pushAccum + credit) }
  else { r with pushEdge := some edge, pushAccum := credit }

/-- The crossing itself, once every gate is open. -/
def cross (r : EdgeRouter) (now : Instant) (screen targetScreen : Screen) (target : ScreenId)
    (edge : Edge) (overflow : ℤ) : EdgeRouter × RoutedEvent :=
  let along := match edge with
    | .left | .right => r.cursorY
    | .top | .bottom => r.cursorX
  let sourceSpan := match edge with
    | .left | .right => screen.height
    | .top | .bottom => screen.width
  let targetSpan := match edge with
    | .left | .right => targetScreen.height
    | .top | .bottom => targetScreen.width
  let mapped := mapCoordinate along sourceSpan targetSpan
  let entry := r.doubleStyle.entryForExit edge
  let (targetX, targetY) := entryTargetCoords entry.opposite targetScreen mapped
  let source := r.currentScreen
  let r := if source = r.localScreen then
    { r with localCursorX := r.cursorX, localCursorY := r.cursorY } else r
  let remainder : InputEvent := match edge with
    | .left => .mouseMove (-saturatingI32 overflow) 0
    | .right => .mouseMove (saturatingI32 overflow) 0
    | .top => .mouseMove 0 (-saturatingI32 overflow)
    | .bottom => .mouseMove 0 (saturatingI32 overflow)
  ({ r with
      pushEdge := none, pushAccum := 0, postReturnEdge := none, postReturnAt := none,
      currentScreen := target, cursorX := targetX, cursorY := targetY,
      activeRemote := some target, entryEdge := some entry, returnArmed := false,
      returnAccum := 0, returnEdge := none, returnEdgeAccum := 0, returnRunSince := none,
      handoffAt := some now },
    .handoff source target edge targetX targetY remainder)

/-- Motion that overflows an edge of the local screen, up to the first gate that holds. -/
def push (r : EdgeRouter) (now : Instant) (screen : Screen) (edge : Edge)
    (overflow nextX nextY : ℤ) : Option (EdgeRouter × RoutedEvent) :=
  let clamp (r : EdgeRouter) (reason : ClampReason) :=
    r.clampToEdge nextX nextY screen.width screen.height reason
  if r.locked then some (clamp r.clearPush .locked)
  else match r.crossingTarget r.currentScreen edge with
    | none => some (clamp r.clearPush .noTarget)
    | some target =>
      if r.startupGate then some (clamp r.clearPush .startupGate)
      else if r.postReturnEdge = some edge ∧ r.postReturnHolds now then
        some (clamp r.clearPush .postReturn)
      else
        let r := r.creditPush screen edge overflow
        if r.pushAccum < edgePushPx then some (clamp r .pushBudget)
        else match r.layout.screen target with
          | none => none
          | some targetScreen => some (r.cross now screen targetScreen target edge overflow)

/-- The edge a local motion overflows and how far past it the motion lands. -/
def localExit (nextX nextY : ℤ) (screen : Screen) : Option Edge × ℤ :=
  if nextX < 0 then (some .left, -nextX)
  else if (screen.width : ℤ) ≤ nextX then (some .right, nextX - (screen.width - 1))
  else if nextY < 0 then (some .top, -nextY)
  else if (screen.height : ℤ) ≤ nextY then (some .bottom, nextY - (screen.height - 1))
  else (none, 0)

def routeLocal (r : EdgeRouter) (now : Instant) (dx dy : Int32) :
    Option (EdgeRouter × RoutedEvent) :=
  match r.layout.screen r.currentScreen with
  | none => none
  | some screen =>
    let nextX : ℤ := r.cursorX + dx.toInt
    let nextY : ℤ := r.cursorY + dy.toInt
    match localExit nextX nextY screen with
    | (none, _) => some (r.moveInside screen nextX nextY, .localEvent (.mouseMove dx dy))
    | (some edge, overflow) => r.push now screen edge overflow nextX nextY

def route (r : EdgeRouter) (now : Instant) (event : InputEvent) :
    Option (EdgeRouter × RoutedEvent) :=
  match r.activeRemote with
  | some target => some (r.routeDriving now target event)
  | none =>
    match event with
    | .mouseMove dx dy => r.routeLocal now dx dy
    | _ => some (r, .localEvent event)

end EdgeRouter

end TheKvm

import Mathlib.Data.List.Nodup
import Mathlib.Tactic.Common
import TheKvm.Lib.Text
import TheKvm.Core.Event

/-!
The screen arrangement: a grid of screens, its neighbours, and the motion that leaves one.

Pixel spans and positions (`u32` in the source) are natural numbers, `i64` intermediates
are integers; nothing here gets near their bounds. Grid positions are `i32` and step with
wrap-around, as a release build does.
-/

namespace TheKvm

structure ScreenId where
  val : UInt32
  deriving DecidableEq

/-- The `Debug` form, as error messages print it. -/
def ScreenId.debug (id : ScreenId) : String := "ScreenId(" ++ toString id.val ++ ")"

inductive Edge
  | left | right | top | bottom
  deriving DecidableEq

def Edge.opposite : Edge → Edge
  | .left => .right
  | .right => .left
  | .top => .bottom
  | .bottom => .top

/-- `matches!(edge, Edge::Left | Edge::Right)`. -/
def Edge.horizontal : Edge → Bool
  | .left | .right => true
  | .top | .bottom => false

inductive EdgeMode
  | single | double
  deriving DecidableEq

inductive DoubleEdgeStyle
  | mirror | fixedLeft | fixedRight
  deriving DecidableEq

/-- The peer edge a crossing enters through. -/
def DoubleEdgeStyle.entryForExit (style : DoubleEdgeStyle) (exit : Edge) : Edge :=
  match style with
  | .mirror => exit.opposite
  | .fixedLeft => .left
  | .fixedRight => .right

structure Screen where
  id : ScreenId
  name : String
  /-- Grid position, in screens. -/
  x : Int32
  y : Int32
  width : ℕ
  height : ℕ
  peerFingerprint : Option String
  deriving DecidableEq

def Screen.resize (screen : Screen) (width height : ℕ) : Screen :=
  { screen with width := width, height := height }

structure Layout where
  screens : List Screen
  selfScreen : Option ScreenId
  deriving DecidableEq

structure EdgeHandoff where
  source : ScreenId
  target : ScreenId
  edge : Edge
  targetX : ℕ
  targetY : ℕ
  deriving DecidableEq

/-! ### Coordinates -/

def settlePx : ℕ := 40
def postReturnClearPx : ℕ := 64
def returnInsetPx : ℕ := 8
def postReturnHoldMs : ℕ := 250
def edgePushPx : ℤ := 8
def phantomStartGuardPx : ℕ := 64
def entryInsetPx : ℕ := 32
def returnPushPx : ℤ := 64
def returnEdgePx : ℤ := 20
def resyncDivergePx : ℕ := 2

/-- Pixels between a cursor and one screen edge. -/
def distanceFromEdge (edge : Edge) (x y width height : ℕ) : ℕ :=
  match edge with
  | .left => x
  | .right => width - 1 - x
  | .top => y
  | .bottom => height - 1 - y

def mapCoordinate (value sourceSpan targetSpan : ℕ) : ℕ :=
  if sourceSpan ≤ 1 ∨ targetSpan ≤ 1 then 0
  else min value (sourceSpan - 1) * (targetSpan - 1) / (sourceSpan - 1)

def saturatingI32 (value : ℤ) : Int32 :=
  Int32.ofInt (min (max value (-2 ^ 31)) (2 ^ 31 - 1))

lemma toInt_saturatingI32 (value : ℤ) :
    (saturatingI32 value).toInt = min (max value (-2 ^ 31)) (2 ^ 31 - 1) :=
  Int32.toInt_ofInt_of_le (by omega) (by omega)

/-- Which edge an out-of-bounds step attempted. -/
def edgeForOverflow (nextX nextY : ℤ) (width height : ℕ) : Option Edge :=
  if nextX < 0 then some .left
  else if (width : ℤ) ≤ nextX then some .right
  else if nextY < 0 then some .top
  else if (height : ℤ) ≤ nextY then some .bottom
  else none

/-- Landing of a crossing through `edge`: inset on the crossing axis, mapped along it. -/
def entryTargetCoords (edge : Edge) (targetScreen : Screen) (mapped : ℕ) : ℕ × ℕ :=
  match edge with
  | .left => (targetScreen.width - 1 - entryInsetPx, mapped)
  | .right => (min entryInsetPx (targetScreen.width - 1), mapped)
  | .top => (mapped, targetScreen.height - 1 - entryInsetPx)
  | .bottom => (mapped, min entryInsetPx (targetScreen.height - 1))

/-! ### The layout -/

namespace Layout

/-- The loop of `validate` over the screens; `ids` and `positions` are the sets it has
filled so far, and it ends with the ids. -/
def validateScreens (ids : List ScreenId) (positions : List (Int32 × Int32)) :
    List Screen → Except String (List ScreenId)
  | [] => .ok ids
  | screen :: rest =>
    if Text.trim screen.name = "" then
      .error ("screen " ++ screen.id.debug ++ " has an empty name")
    else if screen.width = 0 ∨ screen.height = 0 then
      .error ("screen " ++ screen.id.debug ++ " has an empty geometry")
    else if screen.id ∈ ids then
      .error ("duplicate screen id " ++ screen.id.debug)
    else if (screen.x, screen.y) ∈ positions then
      .error ("duplicate screen position (" ++ toString screen.x ++ ", " ++
        toString screen.y ++ ")")
    else validateScreens (screen.id :: ids) ((screen.x, screen.y) :: positions) rest

def validate (l : Layout) : Except String Unit :=
  if 64 < l.screens.length then .error "layout contains more than 64 screens"
  else match validateScreens [] [] l.screens with
    | .error message => .error message
    | .ok ids =>
      match l.selfScreen with
      | none => .ok ()
      | some selfScreen =>
        if selfScreen ∈ ids then .ok ()
        else .error ("self screen " ++ selfScreen.debug ++ " is not in the layout")

def screen (l : Layout) (id : ScreenId) : Option Screen :=
  l.screens.find? fun screen => screen.id = id

def neighborForEdge (l : Layout) (me : ScreenId) (edge : Edge) : Option ScreenId :=
  match l.screens.find? fun s => s.id = me with
  | none => none
  | some mine =>
    let (dx, dy) : Int32 × Int32 := match edge with
      | .left => (-1, 0)
      | .right => (1, 0)
      | .top => (0, -1)
      | .bottom => (0, 1)
    let tx := mine.x + dx
    let ty := mine.y + dy
    (l.screens.find? fun s => s.x = tx ∧ s.y = ty).map (·.id)

/-- The loop of `singlePeerScreen`, from what it has found so far. -/
def singlePeerFrom (found : Option ScreenId) : List Screen → Option ScreenId
  | [] => found
  | screen :: rest =>
    if screen.peerFingerprint.isSome then
      if found.isSome then none else singlePeerFrom (some screen.id) rest
    else singlePeerFrom found rest

/-- The peer screen, when the layout has exactly one. -/
def singlePeerScreen (l : Layout) : Option ScreenId := singlePeerFrom none l.screens

/-- The first element that meets `p`, changed by `f` in place (`iter_mut().find(..)`). -/
def modifyFirst {α : Type*} (p : α → Bool) (f : α → α) : List α → List α
  | [] => []
  | a :: l => if p a then f a :: l else a :: modifyFirst p f l

/-- The first screen with this id, resized. -/
def resized (l : Layout) (id : ScreenId) (width height : ℕ) : Layout :=
  { l with screens := modifyFirst (·.id = id) (·.resize width height) l.screens }

/-- The new layout, and whether a screen took the size. -/
def setScreenSize (l : Layout) (id : ScreenId) (width height : ℕ) : Layout × Bool :=
  if width = 0 ∨ height = 0 then (l, false)
  else match l.screens.find? fun screen => screen.id = id with
    | none => (l, false)
    | some _ => (l.resized id width height, true)

/-- Mode-aware target: the grid neighbour, else the lone peer of a double link through
either horizontal edge. -/
def crossingTargetFor (l : Layout) (me : ScreenId) (edge : Edge) (edgeMode : EdgeMode) :
    Option ScreenId :=
  match l.neighborForEdge me edge with
  | some neighbour => some neighbour
  | none =>
    if edgeMode = .double ∧ edge.horizontal then
      match l.singlePeerScreen with
      | none => none
      | some peer => if peer ≠ me then some peer else none
    else none

/-- The stateless form a receiver uses to request the next hop. -/
def handoffForMotion (l : Layout) (screenId : ScreenId) (x y : ℕ) (dx dy : Int32)
    (edgeMode : EdgeMode) (doubleStyle : DoubleEdgeStyle) : Option EdgeHandoff :=
  match l.screen screenId with
  | none => none
  | some screen =>
    let x := min x (screen.width - 1)
    let y := min y (screen.height - 1)
    let nextX : ℤ := x + dx.toInt
    let nextY : ℤ := y + dy.toInt
    let edge : Option Edge :=
      if nextX < 0 then some .left
      else if (screen.width : ℤ) ≤ nextX then some .right
      else if nextY < 0 then some .top
      else if (screen.height : ℤ) ≤ nextY then some .bottom
      else none
    match edge with
    | none => none
    | some edge =>
      match l.crossingTargetFor screenId edge edgeMode with
      | none => none
      | some target =>
        match l.screen target with
        | none => none
        | some targetScreen =>
          let along := match edge with
            | .left | .right => y
            | .top | .bottom => x
          let sourceSpan := match edge with
            | .left | .right => screen.height
            | .top | .bottom => screen.width
          let targetSpan := match edge with
            | .left | .right => targetScreen.height
            | .top | .bottom => targetScreen.width
          let mapped := mapCoordinate along sourceSpan targetSpan
          let entry := doubleStyle.entryForExit edge
          let (targetX, targetY) := entryTargetCoords entry.opposite targetScreen mapped
          some ⟨screenId, target, edge, targetX, targetY⟩

end Layout

end TheKvm

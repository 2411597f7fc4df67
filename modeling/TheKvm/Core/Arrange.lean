import TheKvm.Core.Layout

/-!
Edits of a screen arrangement: the default of a pairing, and the side a peer is placed on.
-/

namespace TheKvm

def displayName (name fallback : String) : String :=
  if (Text.trim name).isEmpty then fallback else Text.trim name

def selfScreenId : ScreenId := ⟨1⟩
def firstPeerScreenId : ScreenId := ⟨2⟩
def defaultScreenWidth : ℕ := 1920
def defaultScreenHeight : ℕ := 1080

/-- The screen is pinned to the peer. -/
def Screen.pinnedTo (fingerprint : String) (screen : Screen) : Bool :=
  screen.peerFingerprint = some fingerprint

def Screen.moveTo (x y : Int32) (screen : Screen) : Screen := { screen with x, y }

/-- The grid position next to a screen. -/
def Screen.beside (me : Screen) : Edge → Int32 × Int32
  | .left => (me.x - 1, me.y)
  | .right => (me.x + 1, me.y)
  | .top => (me.x, me.y - 1)
  | .bottom => (me.x, me.y + 1)

namespace Layout

/-- `Layout::default`. -/
def empty : Layout := ⟨[], none⟩

/-- This machine at the origin, the peer on its right. -/
def pairDefault (selfName peerName peerFingerprint : String) : Layout where
  screens :=
    [⟨selfScreenId, displayName selfName "This computer", 0, 0, defaultScreenWidth,
        defaultScreenHeight, none⟩,
      ⟨firstPeerScreenId, displayName peerName "Other computer", 1, 0, defaultScreenWidth,
        defaultScreenHeight, some (Text.toAsciiLowercase peerFingerprint)⟩]
  selfScreen := some selfScreenId

/-- `self_screen`. -/
def me (l : Layout) : Option Screen := l.selfScreen.bind l.screen

/-- Where the screen of a peer sits, seen from this machine's. -/
def sideOfPeer (l : Layout) (fingerprint : String) : Option Edge :=
  match l.me, l.screens.find? (Screen.pinnedTo fingerprint) with
  | some me, some peer =>
    if peer.x < me.x then some .left
    else if me.x < peer.x then some .right
    else if peer.y < me.y then some .top
    else if me.y < peer.y then some .bottom
    else none
  | _, _ => none

/-- One past the highest id. -/
def nextScreenId (l : Layout) : ScreenId :=
  let highest := (l.screens.map fun screen => screen.id.val.toNat).foldl max 0
  ⟨.ofNat (max (min (highest + 1) (2 ^ 32 - 1)) 1)⟩

/-- A place that another screen has is refused. -/
def placePeer (l : Layout) (fingerprint : String) (side : Edge) : Except String Layout :=
  match l.me with
  | none => .error "layout has no local screen"
  | some me =>
    let (x, y) := me.beside side
    if l.screens.any fun screen =>
        !screen.pinnedTo fingerprint && screen.x = x && screen.y = y then
      .error "another screen already occupies that position"
    else if l.screens.any (Screen.pinnedTo fingerprint) then
      .ok { l with
        screens := modifyFirst (Screen.pinnedTo fingerprint) (Screen.moveTo x y) l.screens }
    else .error "layout has no linked peer screen"

/-- The grid: which screen is where. -/
def grid (l : Layout) : List (ScreenId × Int32 × Int32) :=
  l.screens.map fun screen => (screen.id, screen.x, screen.y)

end Layout

end TheKvm

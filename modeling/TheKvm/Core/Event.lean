import Mathlib.Init

/-!
Input events, as every platform captures them and the wire carries them.
-/

namespace TheKvm

/-- A USB HID keyboard usage. -/
abbrev HidUsage := UInt16

structure KeyEvent where
  usage : HidUsage
  pressed : Bool
  /-- The source's `repeat`: the press of a key already held. -/
  repeated : Bool
  deriving DecidableEq

inductive MouseButton
  | left | right | middle | back | forward
  deriving DecidableEq

structure WheelDelta where
  x : Int16
  y : Int16
  deriving DecidableEq

inductive InputEvent
  | key (event : KeyEvent)
  | mouseMove (dx dy : Int32)
  | mouseButton (button : MouseButton) (pressed : Bool)
  | wheel (delta : WheelDelta)
  | smoothWheel (x y : Int32)
  | pinch (delta : Int32)
  | pinchEnd
  deriving DecidableEq

/-- `is_release`. -/
def InputEvent.isRelease : InputEvent → Bool
  | .key event => !event.pressed
  | .mouseButton _ pressed => !pressed
  | .pinchEnd => true
  | _ => false

def InputEvent.isPinch : InputEvent → Bool
  | .pinchEnd => true
  | .pinch _ => true
  | _ => false

structure InputPacket where
  sequence : UInt64
  event : InputEvent
  deriving DecidableEq

/-- The keys and buttons a sender holds. -/
structure InputState where
  pressedKeys : List HidUsage
  pressedButtons : List MouseButton
  deriving DecidableEq

end TheKvm

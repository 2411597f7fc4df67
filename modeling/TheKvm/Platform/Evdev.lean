import TheKvm.Core.Router
import TheKvm.Lib.BTreeSet
import TheKvm.Lib.Trace
import TheKvm.Platform.Keys

/-!
The evdev capture of several devices.

Each device decodes its own raw events. What it decodes is filtered by the controls that all
devices hold together and waits in the queue of its device; the queues are emptied before the
devices are read again. A device that goes away leaves its queue and the releases of what only
it held.
-/

namespace TheKvm

instance : Ranked HidUsage := ⟨UInt16.toNat, fun _ _ => UInt16.toNat_inj.mp⟩

lemma ctorIdx_injective : Function.Injective MouseButton.ctorIdx := by
  intro a b h
  cases a <;> cases b <;> first | rfl | exact absurd h (by decide)

instance : Ranked MouseButton := ⟨MouseButton.ctorIdx, ctorIdx_injective⟩

namespace Evdev

/-! ### Raw events -/

structure RawInputEvent where
  type : UInt16
  code : UInt16
  value : Int32
  deriving DecidableEq

def evSyn : UInt16 := 0x00
def evKey : UInt16 := 0x01
def evRel : UInt16 := 0x02
def evAbs : UInt16 := 0x03
def synReport : UInt16 := 0
def relX : UInt16 := 0x00
def relY : UInt16 := 0x01
def relHwheel : UInt16 := 0x06
def relWheel : UInt16 := 0x08
def relWheelHiRes : UInt16 := 0x0b
def relHwheelHiRes : UInt16 := 0x0c
def absX : UInt16 := 0x00
def absY : UInt16 := 0x01
def absMtSlot : UInt16 := 0x2f
def absMtPositionX : UInt16 := 0x35
def absMtPositionY : UInt16 := 0x36
def absMtTrackingId : UInt16 := 0x39
def btnToolFinger : UInt16 := 0x145
def btnTouch : UInt16 := 0x14a
def btnToolDoubletap : UInt16 := 0x14d
def btnToolTripletap : UInt16 := 0x14e

/-- `mouse_button`. -/
def mouseButton (code : UInt16) : Option MouseButton :=
  match code.toNat with
  | 0x110 => some .left
  | 0x111 => some .right
  | 0x112 => some .middle
  | 0x113 => some .back
  | 0x114 => some .forward
  | _ => none

/-- `key_pressed`: an autorepeat counts as a press. -/
def keyPressed (value : Int32) : Option Bool :=
  if value = 0 then some false
  else if value = 1 ∨ value = 2 then some true
  else some (value ≠ 0)

/-- `saturating_add` of `i32`. -/
def saturatingAdd (a b : Int32) : Int32 := saturatingI32 (a.toInt + b.toInt)

lemma toInt_saturatingAdd (a b : Int32) :
    (saturatingAdd a b).toInt = min (max (a.toInt + b.toInt) (-2 ^ 31)) (2 ^ 31 - 1) :=
  toInt_saturatingI32 _

/-- `saturating_mul` of `i32`. -/
def saturatingMul (a b : Int32) : Int32 := saturatingI32 (a.toInt * b.toInt)

/-! ### A device -/

/-- A slot is within the table by its type. -/
structure TouchpadState where
  mtSlot : Fin 10
  mtSlots : Fin 10 → Bool × Int32 × Int32
  absX : Int32
  absY : Int32
  touchDown : Bool
  toolFingers : UInt8
  lastSingle : Option (Int32 × Int32)
  lastTwoMid : Option (Int32 × Int32)
  tapStart : Option (Instant × Int32 × Int32)
  tapMaxMove : Int32
  tapTwoFinger : Bool
  rightClickRemapped : Bool

namespace TouchpadState

def default : TouchpadState :=
  ⟨0, fun _ => (false, 0, 0), 0, 0, false, 0, none, none, none, 0, false, false⟩

def activeContacts (t : TouchpadState) : List (Int32 × Int32) :=
  ((List.finRange 10).map t.mtSlots).filterMap fun slot => if slot.1 then some slot.2 else none

def effectiveFingers (t : TouchpadState) (contacts : ℕ) : ℕ :=
  if 0 < contacts then contacts
  else if t.touchDown then max t.toolFingers.toNat 1
  else 0

def setSlot (t : TouchpadState) (slot : Bool × Int32 × Int32) : TouchpadState :=
  { t with mtSlots := Function.update t.mtSlots t.mtSlot slot }

/-- The tools a touchpad reports. -/
def tool (t : TouchpadState) (code : UInt16) (value : Int32) : TouchpadState :=
  if code = btnToolFinger then
    if value ≠ 0 ∧ t.toolFingers < 2 then { t with toolFingers := 1 }
    else if value = 0 ∧ t.toolFingers = 1 then { t with toolFingers := 0 }
    else t
  else if code = btnToolDoubletap then
    if value ≠ 0 then { t with toolFingers := 2, tapTwoFinger := true }
    else if t.toolFingers = 2 then { t with toolFingers := 1 }
    else t
  else
    if value ≠ 0 then { t with toolFingers := 3 }
    else if t.toolFingers = 3 then { t with toolFingers := 1 }
    else t

/-- `EV_ABS` of a touchpad. -/
def abs (t : TouchpadState) (code : UInt16) (value : Int32) : TouchpadState :=
  let slot := t.mtSlots t.mtSlot
  if code = absMtSlot then
    if h : 0 ≤ value.toInt ∧ value.toInt < 10 then
      { t with mtSlot := ⟨value.toInt.toNat, by omega⟩ }
    else t
  else if code = absMtTrackingId then
    let t := t.setSlot (0 ≤ value, slot.2)
    if 0 ≤ value ∧ 2 ≤ t.activeContacts.length then { t with tapTwoFinger := true } else t
  else if code = absMtPositionX then { t.setSlot (true, value, slot.2.2) with absX := value }
  else if code = absMtPositionY then { t.setSlot (true, slot.2.1, value) with absY := value }
  else if code = Evdev.absX then { t with absX := value }
  else if code = Evdev.absY then { t with absY := value }
  else t

/-- How far the fingers have moved since they came down. -/
def moved (t : TouchpadState) (x y : Int32) : TouchpadState :=
  match t.tapStart with
  | some (_, sx, sy) =>
    let dist := saturatingAdd (x - sx).abs (y - sy).abs
    { t with tapMaxMove := if t.tapMaxMove ≤ dist then dist else t.tapMaxMove }
  | none => t

end TouchpadState

structure Kind where
  isKeyboard : Bool
  isMouse : Bool
  isTouchpad : Bool
  isOwnInjector : Bool
  deriving DecidableEq

structure Device where
  kind : Kind
  touchpad : TouchpadState
  dx : Int32
  dy : Int32
  scrollX120ths : Int32
  scrollY120ths : Int32
  wheelDetentX : Int32
  wheelDetentY : Int32
  queue : List InputEvent
  pressedKeys : BTreeSet HidUsage
  pressedButtons : BTreeSet MouseButton

namespace Device

/-- A device that was just opened. -/
def opened (kind : Kind) : Device :=
  ⟨kind, .default, 0, 0, 0, 0, 0, 0, [], .empty, .empty⟩

def pressButton (d : Device) (button : MouseButton) (pressed : Bool) : Device :=
  { d with
    pressedButtons :=
      if pressed then d.pressedButtons.insert button else d.pressedButtons.erase button }

/-- `BTN_TOUCH`: a tap is a click when no button of the touchpad is down. -/
def touch (d : Device) (now : Instant) (value : Int32) : Device × List InputEvent :=
  let t := d.touchpad
  if value ≠ 0 ∧ t.touchDown = false then
    ({ d with
      touchpad :=
        { t with
          tapStart := some (now, t.absX, t.absY)
          tapMaxMove := 0
          tapTwoFinger := 2 ≤ t.toolFingers
          touchDown := true } }, [])
  else if value = 0 ∧ t.touchDown = true then
    let clicks : Bool :=
      match t.tapStart with
      | some (started, _) =>
        now - started ≤ 180 && t.tapMaxMove ≤ 24 && d.pressedButtons.isEmpty
      | none => false
    let button := if t.tapTwoFinger then MouseButton.right else .left
    ({ d with
      touchpad :=
        { t with tapStart := none, lastSingle := none, lastTwoMid := none, touchDown := false } },
      if clicks then [.mouseButton button true, .mouseButton button false] else [])
  else ({ d with touchpad := { t with touchDown := value ≠ 0 } }, [])

/-- A button of a touchpad: a press with two fingers is a right click. -/
def padButton (d : Device) (button : MouseButton) (pressed : Bool) : Device × List InputEvent :=
  let t := { d.touchpad with tapStart := none }
  let (button, t) :=
    if button = .left ∧ pressed = true ∧ 2 ≤ t.toolFingers then
      (MouseButton.right, { t with rightClickRemapped := true })
    else if button = .left ∧ pressed = false ∧ t.rightClickRemapped = true then
      (.right, { t with rightClickRemapped := false })
    else (button, t)
  ({ d with touchpad := t }.pressButton button pressed, [.mouseButton button pressed])

/-- `EV_KEY` of a touchpad. -/
def touchpadKey (d : Device) (now : Instant) (code : UInt16) (value : Int32) :
    Device × List InputEvent :=
  if code = btnTouch then d.touch now value
  else if code = btnToolFinger ∨ code = btnToolDoubletap ∨ code = btnToolTripletap then
    ({ d with touchpad := d.touchpad.tool code value }, [])
  else
    match mouseButton code, keyPressed value with
    | some button, some pressed => d.padButton button pressed
    | _, _ => (d, [])

/-- `push_key`: a repeat of a held key goes to the queue past the filter. -/
def pushKey (d : Device) (code : UInt16) (value : Int32) : Device × List InputEvent :=
  match keyPressed value, hidFromEvdev code with
  | some true, some usage =>
    if value = 2 ∧ usage ∈ d.pressedKeys then
      ({ d with queue := d.queue ++ [.key ⟨usage, true, true⟩] }, [])
    else ({ d with pressedKeys := d.pressedKeys.insert usage }, [.key ⟨usage, true, false⟩])
  | some false, some usage =>
    ({ d with pressedKeys := d.pressedKeys.erase usage }, [.key ⟨usage, false, false⟩])
  | _, _ => (d, [])

/-- `EV_KEY` of a mouse. -/
def mouseKey (d : Device) (code : UInt16) (value : Int32) : Device × List InputEvent :=
  match mouseButton code with
  | some button =>
    match keyPressed value with
    | some pressed => (d.pressButton button pressed, [.mouseButton button pressed])
    | none => (d, [])
  | none => if d.kind.isKeyboard then d.pushKey code value else (d, [])

/-- `EV_REL`. -/
def rel (d : Device) (code : UInt16) (value : Int32) : Device :=
  if code = relX then { d with dx := saturatingAdd d.dx value }
  else if code = relY then { d with dy := saturatingAdd d.dy value }
  else if code = relWheel then { d with wheelDetentY := saturatingAdd d.wheelDetentY value }
  else if code = relHwheel then { d with wheelDetentX := saturatingAdd d.wheelDetentX value }
  else if code = relWheelHiRes then { d with scrollY120ths := saturatingAdd d.scrollY120ths value }
  else if code = relHwheelHiRes then { d with scrollX120ths := saturatingAdd d.scrollX120ths value }
  else d

/-- One finger moves the pointer. -/
def glide (d : Device) (x y : Int32) : Device :=
  let t := { d.touchpad.moved x y with lastTwoMid := none, lastSingle := some (x, y) }
  match d.touchpad.lastSingle with
  | some (lx, ly) =>
    let rdx := x - lx
    let rdy := y - ly
    if rdx.abs ≤ 300 ∧ rdy.abs ≤ 300 ∧ (rdx ≠ 0 ∨ rdy ≠ 0) then
      let speed := saturatingAdd rdx.abs rdy.abs
      let gain := if 16 < speed then 4 else if 6 < speed then 3 else 2
      { d with
        touchpad := t
        dx := saturatingAdd d.dx (saturatingMul rdx gain)
        dy := saturatingAdd d.dy (saturatingMul rdy gain) }
    else { d with touchpad := t }
  | none => { d with touchpad := t }

/-- Two fingers scroll. -/
def pan (d : Device) (mx my : Int32) : Device :=
  let t :=
    { d.touchpad.moved mx my with
      lastSingle := none
      tapTwoFinger := true
      lastTwoMid := some (mx, my) }
  match d.touchpad.lastTwoMid with
  | some (lmx, lmy) =>
    let sx := mx - lmx
    let sy := my - lmy
    if sx.abs ≤ 300 ∧ sy.abs ≤ 300 ∧ (sx ≠ 0 ∨ sy ≠ 0) then
      if sx.abs ≤ sy.abs then
        { d with
          touchpad := t
          scrollY120ths := saturatingAdd d.scrollY120ths (saturatingMul (-sy) 4) }
      else
        { d with
          touchpad := t
          scrollX120ths := saturatingAdd d.scrollX120ths (saturatingMul sx 4) }
    else { d with touchpad := t }
  | none => { d with touchpad := t }

def fingers (d : Device) : Device :=
  let contacts := d.touchpad.activeContacts
  match d.touchpad.effectiveFingers contacts.length with
  | 1 =>
    let (x, y) := contacts.headD (d.touchpad.absX, d.touchpad.absY)
    d.glide x y
  | 2 =>
    match contacts with
    | (x₀, y₀) :: (x₁, y₁) :: _ => d.pan ((x₀ + x₁) / 2) ((y₀ + y₁) / 2)
    | _ => d.pan d.touchpad.absX d.touchpad.absY
  | _ => { d with touchpad := { d.touchpad with lastSingle := none, lastTwoMid := none } }

/-- `SYN_REPORT`. -/
def report (d : Device) : Device × List InputEvent :=
  let d := if d.kind.isTouchpad then d.fingers else d
  let move := if d.dx ≠ 0 ∨ d.dy ≠ 0 then [InputEvent.mouseMove d.dx d.dy] else []
  let scroll :=
    if d.scrollX120ths ≠ 0 ∨ d.scrollY120ths ≠ 0 then
      [InputEvent.smoothWheel d.scrollX120ths d.scrollY120ths]
    else if d.wheelDetentX ≠ 0 ∨ d.wheelDetentY ≠ 0 then
      [.smoothWheel (saturatingMul d.wheelDetentX 120) (saturatingMul d.wheelDetentY 120)]
    else []
  ({ d with
    dx := 0, dy := 0, scrollX120ths := 0, scrollY120ths := 0, wheelDetentX := 0,
    wheelDetentY := 0 }, move ++ scroll)

/-- `process`. -/
def process (d : Device) (now : Instant) (event : RawInputEvent) : Device × List InputEvent :=
  if d.kind.isOwnInjector then (d, [])
  else if event.type = evKey ∧ d.kind.isTouchpad = true then
    d.touchpadKey now event.code event.value
  else if event.type = evAbs ∧ d.kind.isTouchpad = true then
    ({ d with touchpad := d.touchpad.abs event.code event.value }, [])
  else if event.type = evKey ∧ d.kind.isMouse = true then d.mouseKey event.code event.value
  else if event.type = evKey ∧ d.kind.isKeyboard = true then d.pushKey event.code event.value
  else if event.type = evRel ∧ d.kind.isMouse = true then (d.rel event.code event.value, [])
  else if event.type = evSyn ∧ event.code = synReport then d.report
  else (d, [])

end Device

/-! ### The capture -/

structure EvdevCapture where
  devices : List Device
  pendingEvents : List InputEvent
  pressedKeys : BTreeSet HidUsage
  pressedButtons : BTreeSet MouseButton

/-- What an iteration of `next_event` comes upon: devices that were plugged in, the events each
device yields, with the times they are read at, and the devices that turn out to be gone. Behind
a read that fails otherwise no device yields any and none is gone. -/
structure Cycle where
  plugged : List Kind
  reads : ℕ → List (Instant × RawInputEvent)
  disconnected : List ℕ

namespace EvdevCapture

def empty : EvdevCapture := ⟨[], [], .empty, .empty⟩

/-- Another device than the source satisfies the test. -/
def others (s : EvdevCapture) (source : ℕ) (test : Device → Bool) : Bool :=
  s.devices.zipIdx.any fun e => e.2 ≠ source && test e.1

/-- `accept_event`. -/
def acceptEvent (s : EvdevCapture) (source : ℕ) (event : InputEvent) :
    EvdevCapture × Option InputEvent :=
  match event with
  | .key ⟨usage, pressed, _⟩ =>
    if pressed then
      ({ s with pressedKeys := s.pressedKeys.insert usage },
        if usage ∈ s.pressedKeys then none else some event)
    else if s.others source fun d => usage ∈ d.pressedKeys then (s, none)
    else
      ({ s with pressedKeys := s.pressedKeys.erase usage },
        if usage ∈ s.pressedKeys then some event else none)
  | .mouseButton button pressed =>
    if pressed then
      ({ s with pressedButtons := s.pressedButtons.insert button },
        if button ∈ s.pressedButtons then none else some event)
    else if s.others source fun d => button ∈ d.pressedButtons then (s, none)
    else
      ({ s with pressedButtons := s.pressedButtons.erase button },
        if button ∈ s.pressedButtons then some event else none)
  | _ => (s, some event)

def acceptAll (s : EvdevCapture) (source : ℕ) : List InputEvent → EvdevCapture × List InputEvent
  | [] => (s, [])
  | event :: events =>
    let (s, accepted) := s.acceptEvent source event
    let (s, rest) := s.acceptAll source events
    (s, accepted.toList ++ rest)

/-- A raw event of a device, decoded, filtered and queued. -/
def read (s : EvdevCapture) (index : ℕ) (e : Instant × RawInputEvent) : EvdevCapture :=
  match s.devices[index]? with
  | none => s
  | some device =>
    if device.kind.isOwnInjector then s
    else
      let (device, produced) := device.process e.1 e.2
      let (s, accepted) :=
        { s with devices := s.devices.set index device }.acceptAll index produced
      { s with devices := s.devices.modify index fun d => { d with queue := d.queue ++ accepted } }

def releaseKey (s : EvdevCapture) (usage : HidUsage) : EvdevCapture :=
  if usage ∈ s.pressedKeys then
    { s with
      pressedKeys := s.pressedKeys.erase usage
      pendingEvents := s.pendingEvents ++ [.key ⟨usage, false, false⟩] }
  else s

def releaseButton (s : EvdevCapture) (button : MouseButton) : EvdevCapture :=
  if button ∈ s.pressedButtons then
    { s with
      pressedButtons := s.pressedButtons.erase button
      pendingEvents := s.pendingEvents ++ [.mouseButton button false] }
  else s

def keysOf (devices : List Device) : BTreeSet HidUsage :=
  devices.foldl (fun keys d => keys.extend d.pressedKeys) .empty

def buttonsOf (devices : List Device) : BTreeSet MouseButton :=
  devices.foldl (fun buttons d => buttons.extend d.pressedButtons) .empty

def removed (s : EvdevCapture) (indexes : List ℕ) : List Device :=
  (s.devices.zipIdx.filter fun e => e.2 ∈ indexes).map (·.1)

def retained (s : EvdevCapture) (indexes : List ℕ) : List Device :=
  (s.devices.zipIdx.filter fun e => e.2 ∉ indexes).map (·.1)

/-- `remove_devices`. -/
def removeDevices (s : EvdevCapture) (indexes : List ℕ) : EvdevCapture :=
  let removed := s.removed indexes
  let retained := s.retained indexes
  let s :=
    { s with
      devices := retained
      pendingEvents := s.pendingEvents ++ removed.flatMap Device.queue }
  let s := ((keysOf removed).difference (keysOf retained)).foldl releaseKey s
  ((buttonsOf removed).difference (buttonsOf retained)).foldl releaseButton s

/-- The devices are read one after the other. -/
def readAll (s : EvdevCapture) (reads : ℕ → List (Instant × RawInputEvent)) : EvdevCapture :=
  (List.range s.devices.length).foldl (fun s index => (reads index).foldl (read · index) s) s

def poll (s : EvdevCapture) (cycle : Cycle) : EvdevCapture :=
  let s := s.readAll cycle.reads
  if cycle.disconnected = [] then s else s.removeDevices cycle.disconnected

/-- `reload`. -/
def reload (s : EvdevCapture) (plugged : List Kind) : EvdevCapture :=
  { s with devices := s.devices ++ plugged.map .opened }

/-- The first event of the first queue that has one. -/
def popQueue : List Device → Option (InputEvent × List Device)
  | [] => none
  | d :: devices =>
    match d.queue with
    | event :: queue => some (event, { d with queue } :: devices)
    | [] => (popQueue devices).map fun (event, devices) => (event, d :: devices)

/-- An iteration of the loop of `next_event`, and the event it returns, if it returns one. -/
def nextEvent (s : EvdevCapture) (cycle : Cycle) : EvdevCapture × Option InputEvent :=
  let s := s.reload cycle.plugged
  match s.pendingEvents with
  | event :: pendingEvents => ({ s with pendingEvents }, some event)
  | [] =>
    match popQueue s.devices with
    | some (event, devices) => ({ s with devices }, some event)
    | none => (s.poll cycle, none)

end EvdevCapture

/-- The capture behind some iterations. -/
abbrev after (cycles : List Cycle) : EvdevCapture :=
  Trace.final EvdevCapture.nextEvent EvdevCapture.empty cycles

/-- The events they returned. -/
def stream (cycles : List Cycle) : List InputEvent :=
  (Trace.outputs EvdevCapture.nextEvent EvdevCapture.empty cycles).reduceOption

end Evdev

end TheKvm

import TheKvm.Platform.Evdev

/-!
The injectors of a receiver: the uinput device and the Win32 one.

Both keep the keys and buttons they hold. What they hand the operating system is listed, and the
operating system is taken to accept it.
-/

namespace TheKvm

/-- What an injector hands on, and whether it fails. -/
structure Sent (σ ω : Type*) where
  injector : σ
  inputs : List ω
  result : Except String Unit

namespace Sent

variable {σ ω : Type*}

def ok (injector : σ) (inputs : List ω) : Sent σ ω := ⟨injector, inputs, .ok ()⟩

/-- `?`: what comes next is left out behind an error. -/
def andThen (s : Sent σ ω) (next : σ → Sent σ ω) : Sent σ ω :=
  match s.result with
  | .error _ => s
  | .ok () => { next s.injector with inputs := s.inputs ++ (next s.injector).inputs }

/-- What comes next is not left out, and the first error is kept. -/
def always (s : Sent σ ω) (next : σ → Sent σ ω) : Sent σ ω :=
  let sent := next s.injector
  ⟨sent.injector, s.inputs ++ sent.inputs, s.result.bind fun _ => sent.result⟩

lemma always_ok {s : Sent σ ω} {next : σ → Sent σ ω} (h : (s.always next).result = .ok ()) :
    s.result = .ok () ∧ (next s.injector).result = .ok () := by
  rcases hresult : s.result with error | ⟨⟨⟩⟩
  · rw [always, hresult] at h
    cases h
  · rw [always, hresult] at h
    exact ⟨rfl, h⟩

end Sent

/-- `{usage:#x}`. -/
def lowerHex (usage : UInt16) : String := s!"0x{String.ofList (Nat.toDigits 16 usage.toNat)}"

/-- Usages in a row whose codes are in a row. -/
def usageRow (usage code : UInt16) (n : ℕ) : List (HidUsage × UInt16) :=
  (List.range n).map fun i => (usage + .ofNat i, code + .ofNat i)

lemma mem_of_lookup {arms : List (HidUsage × UInt16)} {usage code : UInt16}
    (h : arms.lookup usage = some code) : (usage, code) ∈ arms := by
  obtain ⟨l, m, rfl, -⟩ := List.lookup_eq_some_iff.mp h
  simp

/-! ### The uinput device -/

namespace Evdev

def btnLeft : UInt16 := 0x110
def btnRight : UInt16 := 0x111
def btnMiddle : UInt16 := 0x112
def btnSide : UInt16 := 0x113
def btnExtra : UInt16 := 0x114

def buttonCode : MouseButton → UInt16
  | .left => btnLeft
  | .right => btnRight
  | .middle => btnMiddle
  | .back => btnSide
  | .forward => btnExtra

/-- The arms of `hid_to_evdev`. -/
def evdevArms : List (HidUsage × UInt16) :=
  [(0x04, 30), (0x05, 48), (0x06, 46), (0x07, 32), (0x08, 18), (0x09, 33), (0x0a, 34), (0x0b, 35),
    (0x0c, 23), (0x0d, 36), (0x0e, 37), (0x0f, 38), (0x10, 50), (0x11, 49), (0x12, 24), (0x13, 25),
    (0x14, 16), (0x15, 19), (0x16, 31), (0x17, 20), (0x18, 22), (0x19, 47), (0x1a, 17), (0x1b, 45),
    (0x1c, 21), (0x1d, 44)] ++ usageRow 0x1e 2 10 ++
  [(0x28, 28), (0x29, 1), (0x2a, 14), (0x2b, 15), (0x2c, 57), (0x2d, 12), (0x2e, 13), (0x2f, 26),
    (0x30, 27), (0x31, 43), (0x33, 39), (0x34, 40), (0x35, 41), (0x36, 51), (0x37, 52), (0x38, 53),
    (0x39, 58)] ++ usageRow 0x3a 59 10 ++
  [(0x44, 87), (0x45, 88), (0x46, 99), (0x47, 70), (0x48, 119), (0x49, 110), (0x4a, 102),
    (0x4b, 104), (0x4c, 111), (0x4d, 107), (0x4e, 109), (0x4f, 106), (0x50, 105), (0x51, 108),
    (0x52, 103), (0x53, 69), (0x54, 98), (0x55, 55), (0x56, 74), (0x57, 78), (0x58, 96)] ++
  usageRow 0x59 79 3 ++ usageRow 0x5c 75 3 ++ usageRow 0x5f 71 3 ++
  [(0x62, 82), (0x63, 83), (0x64, 86), (0x65, 127), (0x66, 116), (0x67, 117)] ++
  usageRow 0x68 183 12 ++
  [(0x75, 138), (0x76, 139), (0x77, 353), (0x78, 128), (0x79, 129), (0x7a, 131), (0x7b, 137),
    (0x7c, 133), (0x7d, 135), (0x7e, 136), (0x7f, 113), (0x80, 115), (0x81, 114), (0x82, 58),
    (0x83, 69), (0x84, 70), (0x85, 121), (0x86, 117), (0xe0, 29), (0xe1, 42), (0xe2, 56),
    (0xe3, 125), (0xe4, 97), (0xe5, 54), (0xe6, 100), (0xe7, 126)]

def hidToEvdev (usage : HidUsage) : Option UInt16 := evdevArms.lookup usage

/-- No other usage has the code of Left Ctrl. -/
lemma hidToEvdev_eq_ctrl_iff {usage : HidUsage} : hidToEvdev usage = some 29 ↔ usage = 0xe0 := by
  constructor
  · intro h
    have hall : (evdevArms.all fun arm => arm.2 ≠ 29 || arm.1 = 0xe0) = true := by decide +kernel
    simpa using List.all_eq_true.mp hall _ (mem_of_lookup h)
  · rintro rfl
    decide +kernel

/-- `bank_smooth_debt`: the whole detents, and the rest. -/
def bankSmoothDebt (debt delta : Int32) : Int32 × Int32 :=
  if delta = 0 then (0, debt)
  else
    let debt := saturatingAdd debt delta
    let detents := debt / 120
    (detents, debt - saturatingMul detents 120)

def emit (type code : UInt16) (value : Int32) : List RawInputEvent :=
  [⟨type, code, value⟩, ⟨evSyn, synReport, 0⟩]

def emitBatch (events : List RawInputEvent) : List RawInputEvent :=
  if events = [] then [] else events ++ [⟨evSyn, synReport, 0⟩]

end Evdev

structure UinputDevice where
  pressedKeys : BTreeSet UInt16
  pressedButtons : BTreeSet UInt16
  wheelDebtX : Int32
  wheelDebtY : Int32

namespace UinputDevice

open Evdev

def create : UinputDevice := ⟨.empty, .empty, 0, 0⟩

def keyPressed (d : UinputDevice) (usage : HidUsage) : Bool :=
  (hidToEvdev usage).any fun code => code ∈ d.pressedKeys

/-- The press of a key that is held is left to the repeat of the display server. -/
def sendKey (d : UinputDevice) (event : KeyEvent) : Sent UinputDevice RawInputEvent :=
  match hidToEvdev event.usage with
  | none => ⟨d, [], .error s!"unsupported HID keyboard usage: {lowerHex event.usage}"⟩
  | some code =>
    if event.pressed ∧ code ∈ d.pressedKeys then .ok d []
    else
      .ok { d with
          pressedKeys := if event.pressed then d.pressedKeys.insert code
            else d.pressedKeys.erase code }
        (emit evKey code (if event.pressed then 1 else 0))

/-- The steps of one wheel axis, in whole detents and in the finer unit. -/
def wheelAxis (axis axisHiRes : UInt16) (detents fine : Int32) : List RawInputEvent :=
  (if detents = 0 then [] else [⟨evRel, axis, detents⟩]) ++
    (if fine = 0 then [] else [⟨evRel, axisHiRes, fine⟩])

def send (d : UinputDevice) : InputEvent → Sent UinputDevice RawInputEvent
  | .mouseMove dx dy =>
    .ok d (emitBatch ((if dx = 0 then [] else [⟨evRel, relX, dx⟩]) ++
      (if dy = 0 then [] else [⟨evRel, relY, dy⟩])))
  | .mouseButton button pressed =>
    let code := buttonCode button
    .ok { d with
        pressedButtons := if pressed then d.pressedButtons.insert code
          else d.pressedButtons.erase code }
      (emit evKey code (if pressed then 1 else 0))
  | .wheel delta =>
    let x := delta.x.toInt32
    let y := delta.y.toInt32
    .ok d (emitBatch (wheelAxis relWheel relWheelHiRes y (saturatingMul y 120) ++
      wheelAxis relHwheel relHwheelHiRes x (saturatingMul x 120)))
  | .smoothWheel x y =>
    let (detentsY, wheelDebtY) := bankSmoothDebt d.wheelDebtY y
    let (detentsX, wheelDebtX) := bankSmoothDebt d.wheelDebtX x
    .ok { d with wheelDebtX, wheelDebtY }
      (emitBatch (wheelAxis relWheel relWheelHiRes detentsY y ++
        wheelAxis relHwheel relHwheelHiRes detentsX x))
  | .key event => d.sendKey event
  | .pinch _ | .pinchEnd => .ok d []

def releaseAll (d : UinputDevice) : Sent UinputDevice RawInputEvent :=
  .ok { d with pressedKeys := .empty, pressedButtons := .empty }
    (d.pressedKeys.toList.flatMap (fun code => emit evKey code 0) ++
      d.pressedButtons.toList.flatMap fun code => emit evKey code 0)

end UinputDevice

/-! ### The Win32 injector -/

namespace Win32

/-- One `INPUT`. -/
inductive Input
  /-- what `motion_input` makes of a motion -/
  | motion (dx dy : Int32)
  | button (button : MouseButton) (pressed : Bool)
  | wheel (amount : Int32)
  | hwheel (amount : Int32)
  | keybd (virtualKey scanCode : UInt16) (extended pressed : Bool)
  deriving DecidableEq

/-- The loop of `wheel_chunks`. -/
def notches (remaining : ℕ) : List ℕ :=
  if remaining = 0 then []
  else min remaining 120 :: notches (remaining - min remaining 120)
decreasing_by omega

def wheelChunks (delta : Int32) : List Int32 :=
  let clamped : ℤ := max (-12000) (min delta.toInt 12000)
  (notches clamped.natAbs).map fun take => .ofInt (clamped.sign * take)

def wheelInputs (vertical horizontal : Int32) : List Input :=
  (wheelChunks vertical).map .wheel ++ (wheelChunks horizontal).map .hwheel

/-- A held key that repeats is tapped. -/
def keyInputsFor (virtualKey scanCode : UInt16) (extended pressed held : Bool) : List Input :=
  if pressed && held then
    [.keybd virtualKey scanCode extended false, .keybd virtualKey scanCode extended true]
  else [.keybd virtualKey scanCode extended pressed]

/-- `key_virtual_key`, without the scan code, which is 0, and the flag, which is not set. -/
def keyVirtualKey (usage : HidUsage) : Option UInt16 :=
  [(0x48, 0x13), (0x7f, 0xad), (0x80, 0xaf), (0x81, 0xae)].lookup usage

/-- The arms of `hid_to_scan_code` without the extended flag. -/
def scanArms : List (HidUsage × UInt16) :=
  [(0x04, 0x1e), (0x05, 0x30), (0x06, 0x2e), (0x07, 0x20), (0x08, 0x12), (0x09, 0x21),
    (0x0a, 0x22), (0x0b, 0x23), (0x0c, 0x17), (0x0d, 0x24), (0x0e, 0x25), (0x0f, 0x26),
    (0x10, 0x32), (0x11, 0x31), (0x12, 0x18), (0x13, 0x19), (0x14, 0x10), (0x15, 0x13),
    (0x16, 0x1f), (0x17, 0x14), (0x18, 0x16), (0x19, 0x2f), (0x1a, 0x11), (0x1b, 0x2d),
    (0x1c, 0x15), (0x1d, 0x2c)] ++ usageRow 0x1e 0x02 10 ++
  [(0x28, 0x1c), (0x29, 0x01), (0x2a, 0x0e), (0x2b, 0x0f), (0x2c, 0x39), (0x2d, 0x0c),
    (0x2e, 0x0d), (0x2f, 0x1a), (0x30, 0x1b), (0x31, 0x2b), (0x33, 0x27), (0x34, 0x28),
    (0x35, 0x29), (0x36, 0x33), (0x37, 0x34), (0x38, 0x35), (0x39, 0x3a)] ++
  usageRow 0x3a 0x3b 11 ++
  [(0x45, 0x58), (0x47, 0x46), (0x53, 0x45), (0x55, 0x37), (0x56, 0x4a), (0x57, 0x4e),
    (0x59, 0x4f), (0x5a, 0x50), (0x5b, 0x51), (0x5c, 0x4b), (0x5d, 0x4c), (0x5e, 0x4d),
    (0x5f, 0x47), (0x60, 0x48), (0x61, 0x49), (0x62, 0x52), (0x63, 0x53), (0x64, 0x56)] ++
  usageRow 0x68 0x64 11 ++
  [(0x73, 0x76), (0xe0, 0x1d), (0xe1, 0x2a), (0xe2, 0x38), (0xe5, 0x36)]

/-- The arms of `hid_to_scan_code` with the extended flag. -/
def extendedScanArms : List (HidUsage × UInt16) :=
  [(0x46, 0x37), (0x49, 0x52), (0x4a, 0x47), (0x4b, 0x4b), (0x4c, 0x53), (0x4d, 0x4d),
    (0x4e, 0x51), (0x4f, 0x4d), (0x50, 0x4b), (0x51, 0x50), (0x52, 0x48), (0x54, 0x35),
    (0x58, 0x1c), (0x65, 0x5d), (0xe3, 0x5b), (0xe4, 0x1d), (0xe6, 0x38), (0xe7, 0x5c)]

def hidToScanCode (usage : HidUsage) : Option (UInt16 × Bool) :=
  ((scanArms.lookup usage).map fun scanCode => (scanCode, false)).or
    ((extendedScanArms.lookup usage).map fun scanCode => (scanCode, true))

/-- How a key is given to `SendInput`. -/
def keyCode (usage : HidUsage) : Option (UInt16 × UInt16 × Bool) :=
  match keyVirtualKey usage with
  | some virtualKey => some (virtualKey, 0, false)
  | none => (hidToScanCode usage).map fun code => (0, code.1, code.2)

/-- No other usage is given as Left Ctrl. -/
lemma keyCode_eq_ctrl_iff {usage : HidUsage} :
    keyCode usage = some (0, 0x1d, false) ↔ usage = 0xe0 := by
  constructor
  · intro h
    rw [keyCode] at h
    have hvirtual : keyVirtualKey usage = none := by
      rcases hkey : keyVirtualKey usage with _ | virtualKey
      · rfl
      · rw [hkey] at h
        cases h
    rw [hvirtual] at h
    obtain ⟨code, hcode, hpair⟩ := Option.map_eq_some_iff.mp h
    obtain rfl : code = (0x1d, false) := by simpa using hpair
    have hall : (scanArms.all fun arm => arm.2 ≠ 0x1d || arm.1 = 0xe0) = true := by
      decide +kernel
    rw [hidToScanCode, Option.or_eq_some_iff] at hcode
    rcases hcode with hplain | ⟨-, hext⟩
    · obtain ⟨scanCode, hlookup, heq⟩ := Option.map_eq_some_iff.mp hplain
      have hfirst := congrArg Prod.fst heq
      simpa [show scanCode = 0x1d from hfirst] using
        List.all_eq_true.mp hall _ (mem_of_lookup hlookup)
    · obtain ⟨scanCode, -, heq⟩ := Option.map_eq_some_iff.mp hext
      exact absurd (congrArg Prod.snd heq).symm Bool.false_ne_true
  · rintro rfl
    decide +kernel

end Win32

/-- The injector where touch injection is unavailable. -/
structure Win32Injector where
  pressedKeys : BTreeSet HidUsage
  pressedButtons : BTreeSet MouseButton
  fallbackCtrl : Bool

namespace Win32Injector

open Win32

def create : Win32Injector := ⟨.empty, .empty, false⟩

def keyPressed (d : Win32Injector) (usage : HidUsage) : Bool := usage ∈ d.pressedKeys

def sendKey (d : Win32Injector) (event : KeyEvent) : Sent Win32Injector Input :=
  match keyCode event.usage with
  | none => ⟨d, [], .error s!"unsupported USB HID keyboard usage: {lowerHex event.usage}"⟩
  | some (virtualKey, scanCode, extended) =>
    .ok { d with
        pressedKeys := if event.pressed then d.pressedKeys.insert event.usage
          else d.pressedKeys.erase event.usage }
      (keyInputsFor virtualKey scanCode extended event.pressed (d.keyPressed event.usage))

/-- `end_pinch`: lets go of the fallback Ctrl. -/
def endPinch (d : Win32Injector) : Win32Injector × List Input :=
  if d.fallbackCtrl then
    ({ d with pressedKeys := d.pressedKeys.erase 0xe0, fallbackCtrl := false },
      [.keybd 0 0x1d false false])
  else (d, [])

/-- `fallback_pinch_wheel`. -/
def fallbackPinchWheel (d : Win32Injector) (delta : Int32) : Win32Injector × List Input :=
  if delta = 0 then (d, [])
  else if d.fallbackCtrl || d.keyPressed 0xe0 then (d, wheelInputs delta 0)
  else
    ({ d with pressedKeys := d.pressedKeys.insert 0xe0, fallbackCtrl := true },
      .keybd 0 0x1d false true :: wheelInputs delta 0)

def send (d : Win32Injector) : InputEvent → Sent Win32Injector Input
  | .mouseMove dx dy => .ok d [.motion dx dy]
  | .mouseButton button pressed =>
    .ok { d with
        pressedButtons := if pressed then d.pressedButtons.insert button
          else d.pressedButtons.erase button }
      [.button button pressed]
  | .wheel delta => .ok d (wheelInputs (delta.y.toInt32 * 120) (delta.x.toInt32 * 120))
  | .smoothWheel x y => .ok d (wheelInputs y x)
  | .pinch delta => .ok (d.fallbackPinchWheel delta).1 (d.fallbackPinchWheel delta).2
  | .pinchEnd => .ok d.endPinch.1 d.endPinch.2
  | .key event => d.sendKey event

/-- Everything is let go, the gesture's hold first. -/
def releaseAll (d : Win32Injector) : Sent Win32Injector Input :=
  let (d, inputs) := d.endPinch
  let keys := d.pressedKeys.toList.map fun usage => InputEvent.key ⟨usage, false, false⟩
  let buttons := d.pressedButtons.toList.map fun button => InputEvent.mouseButton button false
  (keys ++ buttons).foldl (fun sent event => sent.always (send · event)) (.ok d inputs)

end Win32Injector

end TheKvm

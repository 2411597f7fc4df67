import TheKvm.Daemon.Episode
import TheKvm.Lib.SharedKey
import TheKvm.Platform.Injector

/-!
Pinch gestures of a peer, rendered as page zoom on the receiver.

A gesture holds Ctrl and turns the wheel. The hold is a flag of the session, or of the Win32
injector; the key it holds is the one the peer's own Ctrl is injected to, in the one set of held
keys that a state report and a release empty.
-/

namespace TheKvm

/-! ### What the device shows -/

/-- What an injected event does to Ctrl, and whether it is a step of the vertical wheel. -/
class DeviceEvent (ω : Type*) where
  ctrl : ω → Option Bool
  wheel : ω → Bool

instance : DeviceEvent Evdev.RawInputEvent where
  ctrl event :=
    if event.type = Evdev.evKey ∧ event.code = 29 then some (event.value ≠ 0) else none
  wheel event :=
    event.type = Evdev.evRel &&
      (event.code = Evdev.relWheel || event.code = Evdev.relWheelHiRes)

instance : DeviceEvent Win32.Input where
  ctrl
    | .keybd virtualKey scanCode extended pressed =>
      if virtualKey = 0 ∧ scanCode = 0x1d ∧ extended = false then some pressed else none
    | _ => none
  wheel
    | .wheel _ => true
    | _ => false

section

variable {ω : Type*} [DeviceEvent ω]

/-- Ctrl behind some injected events. -/
def deviceCtrl (ctrl : Bool) (inputs : List ω) : Bool :=
  inputs.foldl (fun ctrl input => (DeviceEvent.ctrl input).getD ctrl) ctrl

/-- Every wheel step finds Ctrl held. -/
def WheelsCovered : Bool → List ω → Prop
  | _, [] => True
  | ctrl, input :: inputs =>
    (DeviceEvent.wheel input = true → ctrl = true) ∧
      WheelsCovered ((DeviceEvent.ctrl input).getD ctrl) inputs

variable {ctrl : Bool} {l m : List ω}

lemma deviceCtrl_append : deviceCtrl ctrl (l ++ m) = deviceCtrl (deviceCtrl ctrl l) m :=
  List.foldl_append

/-- What does not touch Ctrl leaves it. -/
lemma deviceCtrl_of_none (h : ∀ i ∈ l, DeviceEvent.ctrl i = none) : deviceCtrl ctrl l = ctrl := by
  induction l with
  | nil => rfl
  | cons i l ih =>
    obtain ⟨hi, hl⟩ := List.forall_mem_cons.mp h
    rw [deviceCtrl, List.foldl_cons, hi]
    exact ih hl

/-- Ctrl goes up by a release only. -/
lemma exists_release (h : deviceCtrl true l = false) :
    ∃ i ∈ l, DeviceEvent.ctrl i = some false := by
  by_contra hnone
  push Not at hnone
  refine Bool.false_ne_true (h.symm.trans ?_)
  clear h
  induction l with
  | nil => rfl
  | cons i l ih =>
    obtain ⟨hi, hl⟩ := List.forall_mem_cons.mp hnone
    have hkept : (DeviceEvent.ctrl i).getD true = true := by
      rcases hctrl : DeviceEvent.ctrl i with _ | _ | _
      · rfl
      · exact absurd hctrl hi
      · rfl
    rw [deviceCtrl, List.foldl_cons, hkept]
    exact ih hl

lemma wheelsCovered_append :
    WheelsCovered ctrl (l ++ m) ↔
      WheelsCovered ctrl l ∧ WheelsCovered (deviceCtrl ctrl l) m := by
  induction l generalizing ctrl with
  | nil => exact (and_iff_right trivial).symm
  | cons i l ih =>
    rw [List.cons_append, WheelsCovered, WheelsCovered, ih, and_assoc]
    rfl

lemma wheelsCovered_of_none (h : ∀ i ∈ l, DeviceEvent.wheel i = false) :
    WheelsCovered ctrl l := by
  induction l generalizing ctrl with
  | nil => trivial
  | cons i l ih =>
    obtain ⟨hi, hl⟩ := List.forall_mem_cons.mp h
    refine ⟨fun hwheel => absurd hwheel ?_, ih hl⟩
    rw [hi]
    exact Bool.false_ne_true

/-- Wheel steps that leave Ctrl alone are covered if there are none or it is held. -/
lemma wheelsCovered_iff (h : ∀ i ∈ l, DeviceEvent.ctrl i = none) :
    WheelsCovered ctrl l ↔ ((∃ i ∈ l, DeviceEvent.wheel i = true) → ctrl = true) := by
  induction l with
  | nil => exact iff_of_true trivial (by simp)
  | cons i l ih =>
    obtain ⟨hi, hl⟩ := List.forall_mem_cons.mp h
    rw [WheelsCovered, hi, Option.getD_none, ih hl, List.exists_mem_cons_iff, or_imp]

end

/-! ### The session -/

/-- The operations of a `ReceiverInjector`. -/
structure ReceiverInjector (σ ω : Type*) where
  send : σ → InputEvent → Sent σ ω
  releaseAll : σ → Sent σ ω
  keyPressed : σ → HidUsage → Bool

def uinputInjector : ReceiverInjector UinputDevice Evdev.RawInputEvent :=
  ⟨UinputDevice.send, UinputDevice.releaseAll, UinputDevice.keyPressed⟩

def win32Injector : ReceiverInjector Win32Injector Win32.Input :=
  ⟨Win32Injector.send, Win32Injector.releaseAll, Win32Injector.keyPressed⟩

namespace ReceiverInjector

variable {σ ω : Type*} (inj : ReceiverInjector σ ω)

/-- A call of the session, where there is no touch channel. -/
def call (s : σ) : InjectorCall → Sent σ ω
  | .send event => inj.send s event
  | .releaseAll => inj.releaseAll s
  | .injectPinch _ | .endPinch | .warpCursor _ _ => .ok s []

/-- Calls up to the first that fails. -/
def run : σ → List InjectorCall → Sent σ ω
  | s, [] => .ok s []
  | s, call :: calls => (inj.call s call).andThen fun s => run s calls

/-- What a gesture asks the injector. -/
def heldCtrl (s : σ) : Held := ⟨if inj.keyPressed s hidLeftCtrl then {hidLeftCtrl} else ∅, ∅⟩

end ReceiverInjector

/-- The frames that act on Ctrl. -/
inductive ZoomFrame
  | key (event : KeyEvent)
  | pinch (delta : Int32)
  | pinchEnd
  | stateSync (state : InputState)
  | releaseAll

structure ZoomSession (σ : Type*) where
  injector : σ
  pinchHeld : Bool
  /-- by an error -/
  ended : Bool

namespace ZoomSession

variable {σ ω : Type*} (inj : ReceiverInjector σ ω) (rendering : PinchRendering)

/-- An error ends the session, and the injector is dropped. -/
def settle (pinchHeld : Bool) (sent : Sent σ ω) : ZoomSession σ × List ω :=
  match sent.result with
  | .ok () => (⟨sent.injector, pinchHeld, false⟩, sent.inputs)
  | .error _ =>
    let dropped := inj.releaseAll sent.injector
    (⟨dropped.injector, pinchHeld, true⟩, sent.inputs ++ dropped.inputs)

def gesture (e : ZoomSession σ) (event : InputEvent) : ZoomSession σ × List ω :=
  let (calls, pinchHeld) :=
    handleInboundPinch rendering (inj.heldCtrl e.injector) e.pinchHeld event
  settle inj pinchHeld (inj.run e.injector calls)

def handle (e : ZoomSession σ) (frame : ZoomFrame) : ZoomSession σ × List ω :=
  if e.ended then (e, [])
  else match frame with
  | .key event => settle inj e.pinchHeld (inj.run e.injector [.send (.key event)])
  | .pinch delta => e.gesture inj rendering (.pinch delta)
  | .pinchEnd => e.gesture inj rendering .pinchEnd
  | .stateSync state =>
    settle inj e.pinchHeld (match syncState state with
      | .error error => ⟨e.injector, [], .error error⟩
      | .ok () => inj.run e.injector (.releaseAll :: state.presses))
  | .releaseAll => settle inj e.pinchHeld (inj.run e.injector [.releaseAll])

variable {inj rendering} {e : ZoomSession σ}

lemma settle_ok {sent : Sent σ ω} (h : sent.result = .ok ()) (pinchHeld : Bool) :
    settle inj pinchHeld sent = (⟨sent.injector, pinchHeld, false⟩, sent.inputs) := by
  rw [settle, h]

/-- A session that has ended takes no frame. -/
lemma handle_ended (h : e.ended = true) (frame : ZoomFrame) :
    e.handle inj rendering frame = (e, []) := if_pos h

lemma handle_live (h : e.ended = false) (frame : ZoomFrame) :
    e.handle inj rendering frame =
      match frame with
      | .key event => settle inj e.pinchHeld (inj.run e.injector [.send (.key event)])
      | .pinch delta => e.gesture inj rendering (.pinch delta)
      | .pinchEnd => e.gesture inj rendering .pinchEnd
      | .stateSync state =>
        settle inj e.pinchHeld (match syncState state with
          | .error error => ⟨e.injector, [], .error error⟩
          | .ok () => inj.run e.injector (.releaseAll :: state.presses))
      | .releaseAll => settle inj e.pinchHeld (inj.run e.injector [.releaseAll]) := by
  cases frame <;> exact if_neg (by simp [h])

end ZoomSession

/-! ### What an injector does with Ctrl -/

namespace InjectorCall

/-- A call of a state report, of a release, or of a key. -/
def Plain : InjectorCall → Prop
  | .send (.key _) | .send (.mouseButton _ _) | .releaseAll => True
  | _ => False

/-- Ctrl behind a call. -/
def ctrlAfter (ctrl : Bool) : InjectorCall → Bool
  | .send event => TheKvm.ctrlAfter ctrl event
  | .releaseAll => false
  | _ => ctrl

end InjectorCall

/-- Keys and buttons that all go one way take Ctrl there if it is among them. -/
lemma foldl_ctrlAfter (keys : List HidUsage) (buttons : List MouseButton) (pressed ctrl : Bool) :
    (keys.map (fun usage => InputEvent.key ⟨usage, pressed, false⟩) ++
        buttons.map fun button => InputEvent.mouseButton button pressed).foldl ctrlAfter ctrl =
      if hidLeftCtrl ∈ keys then pressed else ctrl := by
  have hbuttons : ∀ ctrl, (buttons.map fun button =>
      InputEvent.mouseButton button pressed).foldl ctrlAfter ctrl = ctrl := by
    induction buttons with
    | nil => exact fun _ => rfl
    | cons button buttons ih => exact ih
  rw [List.foldl_append, hbuttons]
  induction keys generalizing ctrl with
  | nil => simp
  | cons usage keys ih =>
    rw [List.map_cons, List.foldl_cons, ih, ctrlAfter]
    rcases eq_or_ne usage hidLeftCtrl with rfl | hne
    · simp
    · simp [hne, hne.symm]

/-- A state report presses Ctrl if it lists it. -/
lemma InputState.foldl_presses (state : InputState) (ctrl : Bool) :
    state.presses.foldl InjectorCall.ctrlAfter ctrl =
      (ctrl || decide (hidLeftCtrl ∈ state.pressedKeys)) := by
  have hsends : state.presses =
      (state.pressedKeys.map (fun usage => InputEvent.key ⟨usage, true, false⟩) ++
        state.pressedButtons.map fun button => InputEvent.mouseButton button true).map .send := by
    rw [presses, List.map_append, List.map_map, List.map_map]
    rfl
  rw [hsends, List.foldl_map]
  refine (foldl_ctrlAfter state.pressedKeys state.pressedButtons true ctrl).trans ?_
  by_cases h : hidLeftCtrl ∈ state.pressedKeys <;> simp [h]

lemma InputState.plain_presses {state : InputState} :
    ∀ call ∈ state.presses, call.Plain := by
  intro call hcall
  rcases List.mem_append.mp hcall with hkey | hbutton
  · obtain ⟨usage, -, rfl⟩ := List.mem_map.mp hkey
    trivial
  · obtain ⟨button, -, rfl⟩ := List.mem_map.mp hbutton
    trivial

namespace ReceiverInjector

variable {σ ω : Type*} {inj : ReceiverInjector σ ω} {s : σ}

lemma run_ok {call : InjectorCall} {calls : List InjectorCall}
    (h : (inj.call s call).result = .ok ()) :
    inj.run s (call :: calls) =
      { inj.run (inj.call s call).injector calls with
        inputs := (inj.call s call).inputs ++
          (inj.run (inj.call s call).injector calls).inputs } := by
  rw [run, Sent.andThen, h]

lemma run_error {call : InjectorCall} {calls : List InjectorCall} {error : String}
    (h : (inj.call s call).result = .error error) :
    inj.run s (call :: calls) = inj.call s call := by
  rw [run, Sent.andThen, h]

variable [DeviceEvent ω] (inj)

def ctrl (s : σ) : Bool := inj.keyPressed s hidLeftCtrl

/-- What was sent took Ctrl where the injector says it is. -/
structure Turned (ctrl : Bool) (s : σ) (sent : Sent σ ω) : Prop where
  device : deviceCtrl (inj.ctrl s) sent.inputs = ctrl
  known : inj.ctrl sent.injector = ctrl

/-- An injector knows how the Ctrl of its device is. -/
structure KnowsCtrl : Prop where
  key (s : σ) (event : KeyEvent) : (inj.send s (.key event)).result = .ok () →
    inj.Turned (ctrlAfter (inj.ctrl s) (.key event)) s (inj.send s (.key event))
  button (s : σ) (button : MouseButton) (pressed : Bool) :
    inj.Turned (inj.ctrl s) s (inj.send s (.mouseButton button pressed))
  releaseAll (s : σ) : (inj.releaseAll s).result = .ok () →
    inj.Turned false s (inj.releaseAll s)

/-- It renders the steps of a zoom. -/
structure Zooms : Prop extends inj.KnowsCtrl where
  takesCtrl (s : σ) (pressed repeated : Bool) :
    (inj.send s (.key ⟨hidLeftCtrl, pressed, repeated⟩)).result = .ok ()
  strikes (s : σ) (pressed repeated : Bool) :
    ∀ i ∈ (inj.send s (.key ⟨hidLeftCtrl, pressed, repeated⟩)).inputs, DeviceEvent.wheel i = false
  takesWheel (s : σ) (y : Int32) : (inj.send s (.smoothWheel 0 y)).result = .ok ()
  wheel (s : σ) (y : Int32) : inj.ctrl (inj.send s (.smoothWheel 0 y)).injector = inj.ctrl s
  quiet (s : σ) (y : Int32) :
    ∀ i ∈ (inj.send s (.smoothWheel 0 y)).inputs, DeviceEvent.ctrl i = none
  turns (s : σ) (y : Int32) : y ≠ 0 →
    ∃ i ∈ (inj.send s (.smoothWheel 0 y)).inputs, DeviceEvent.wheel i = true

variable {inj}

/-- One call, then another. -/
lemma Turned.trans {ctrl ctrl' : Bool} {sent sent' : Sent σ ω} (h : inj.Turned ctrl s sent)
    (h' : inj.Turned ctrl' sent.injector sent') :
    inj.Turned ctrl' s { sent' with inputs := sent.inputs ++ sent'.inputs } := by
  refine ⟨?_, h'.known⟩
  rw [deviceCtrl_append, h.device, ← h.known]
  exact h'.device

lemma KnowsCtrl.call (h : inj.KnowsCtrl) {call : InjectorCall} (hplain : call.Plain) (s : σ)
    (hok : (inj.call s call).result = .ok ()) :
    inj.Turned (call.ctrlAfter (inj.ctrl s)) s (inj.call s call) := by
  cases call with
  | send event =>
    cases event with
    | key event => exact h.key s event hok
    | mouseButton button pressed => exact h.button s button pressed
    | _ => exact hplain.elim
  | releaseAll => exact h.releaseAll s hok
  | _ => exact hplain.elim

/-- Calls that all go through take Ctrl where the last of them about it does. -/
lemma KnowsCtrl.run (h : inj.KnowsCtrl) {calls : List InjectorCall}
    (hplain : ∀ call ∈ calls, call.Plain) (s : σ) (hok : (inj.run s calls).result = .ok ()) :
    inj.Turned (calls.foldl InjectorCall.ctrlAfter (inj.ctrl s)) s (inj.run s calls) := by
  induction calls generalizing s with
  | nil => exact ⟨rfl, rfl⟩
  | cons call calls ih =>
    obtain ⟨hcall, hcalls⟩ := List.forall_mem_cons.mp hplain
    rcases hresult : (inj.call s call).result with error | ⟨⟨⟩⟩
    · rw [run_error hresult, hresult] at hok
      cases hok
    · rw [run_ok hresult] at hok ⊢
      have hfirst := h.call hcall s hresult
      have hrest := ih hcalls (inj.call s call).injector hok
      rw [hfirst.known] at hrest
      exact hfirst.trans hrest

/-- The call that takes the hold. -/
def pressCtrl : InjectorCall := .send (.key ⟨hidLeftCtrl, true, false⟩)

/-- The calls of a spread: the press that takes the hold, and a wheel step. -/
def zoomCalls (take : Bool) (delta : Int32) : List InjectorCall :=
  (if take then [pressCtrl] else []) ++
    if delta ≠ 0 then [.send (.smoothWheel 0 delta)] else []

/-- A spread without a press steps the wheel under the Ctrl there is. -/
lemma Zooms.run_wheel (h : inj.Zooms) (s : σ) (delta : Int32) :
    let sent := inj.run s (zoomCalls false delta)
    sent.result = .ok () ∧ inj.Turned (inj.ctrl s) s sent ∧
      (WheelsCovered (inj.ctrl s) sent.inputs ↔ (delta ≠ 0 → inj.ctrl s = true)) := by
  by_cases hzero : delta = 0
  · have hcalls : zoomCalls false delta = [] := by
      rw [zoomCalls, if_neg (not_not.mpr hzero)]
      rfl
    rw [hcalls]
    exact ⟨rfl, ⟨rfl, rfl⟩, iff_of_true trivial fun hne => absurd hzero hne⟩
  · have hcalls : zoomCalls false delta = [.send (.smoothWheel 0 delta)] := by
      rw [zoomCalls, if_pos hzero]
      rfl
    have hok : (inj.call s (.send (.smoothWheel 0 delta))).result = .ok () := h.takesWheel s delta
    have hquiet : ∀ i ∈ (inj.call s (.send (.smoothWheel 0 delta))).inputs,
        DeviceEvent.ctrl i = none := h.quiet s delta
    rw [hcalls, run_ok hok]
    simp only [run, Sent.ok, List.append_nil]
    refine ⟨trivial, ⟨deviceCtrl_of_none hquiet, h.wheel s delta⟩, ?_⟩
    refine (wheelsCovered_iff hquiet).trans ⟨fun hheld _ => hheld (h.turns s delta hzero), ?_⟩
    exact fun hheld _ => hheld hzero

/-- A spread turns the wheel under Ctrl if Ctrl was down or it presses it. -/
lemma Zooms.run_zoom (h : inj.Zooms) (s : σ) (take : Bool) (delta : Int32) :
    let sent := inj.run s (zoomCalls take delta)
    sent.result = .ok () ∧ inj.Turned (inj.ctrl s || take) s sent ∧
      (WheelsCovered (inj.ctrl s) sent.inputs ↔
        (delta ≠ 0 → (inj.ctrl s || take) = true)) := by
  cases take with
  | false =>
    rw [Bool.or_false]
    exact h.run_wheel s delta
  | true =>
    have hcalls : zoomCalls true delta = pressCtrl :: zoomCalls false delta := rfl
    have hok : (inj.call s pressCtrl).result = .ok () := h.takesCtrl s true false
    have hpress : inj.Turned true s (inj.call s pressCtrl) :=
      @KnowsCtrl.call _ _ _ _ h.toKnowsCtrl pressCtrl trivial s hok
    obtain ⟨hrest, hturned, hcovered⟩ := h.run_wheel (inj.call s pressCtrl).injector delta
    rw [hpress.known] at hturned hcovered
    rw [Bool.or_true, hcalls, run_ok hok]
    refine ⟨hrest, hpress.trans hturned, ?_⟩
    rw [wheelsCovered_append, hpress.device, hcovered]
    exact and_iff_right (wheelsCovered_of_none (h.strikes s true false))

end ReceiverInjector

/-! ### The uinput device -/

namespace UinputDevice

open Evdev

lemma ctrl_eq (d : UinputDevice) : uinputInjector.ctrl d = decide (29 ∈ d.pressedKeys) := by
  have hcode : hidToEvdev hidLeftCtrl = some 29 := hidToEvdev_eq_ctrl_iff.mpr rfl
  calc uinputInjector.ctrl d = (hidToEvdev hidLeftCtrl).any fun code => code ∈ d.pressedKeys := rfl
    _ = decide (29 ∈ d.pressedKeys) := by rw [hcode, Option.any_some]

lemma deviceCtrl_emit (ctrl : Bool) (code : UInt16) (value : Int32) :
    deviceCtrl ctrl (emit evKey code value) = if code = 29 then decide (value ≠ 0) else ctrl := by
  have hsyn : DeviceEvent.ctrl (⟨evSyn, synReport, 0⟩ : RawInputEvent) = none := by rfl
  rw [emit, deviceCtrl, List.foldl_cons, List.foldl_cons, hsyn]
  by_cases hcode : code = 29 <;> simp [DeviceEvent.ctrl, hcode]

lemma buttonCode_ne_ctrl (button : MouseButton) : buttonCode button ≠ 29 := by
  cases button <;> decide

/-- The releases of some codes take Ctrl up if it is among them. -/
lemma deviceCtrl_releases (ctrl : Bool) (codes : List UInt16) :
    deviceCtrl ctrl (codes.flatMap fun code => emit evKey code 0) =
      (ctrl && decide (29 ∉ codes)) := by
  induction codes generalizing ctrl with
  | nil => simp [deviceCtrl]
  | cons code codes ih =>
    rw [List.flatMap_cons, deviceCtrl_append, ih, deviceCtrl_emit]
    rcases eq_or_ne code 29 with rfl | hne
    · simp
    · simp [hne, hne.symm]

lemma mem_emitBatch {events : List RawInputEvent} {i : RawInputEvent} (h : i ∈ events) :
    i ∈ emitBatch events := by
  rw [emitBatch, if_neg (List.ne_nil_of_mem h)]
  exact List.mem_append_left _ h

/-- Relative events leave Ctrl alone. -/
lemma quiet_emitBatch {events : List RawInputEvent} (h : ∀ i ∈ events, i.type = evRel) :
    ∀ i ∈ emitBatch events, DeviceEvent.ctrl i = none := by
  intro i hi
  have htype : i.type ≠ evKey := by
    rw [emitBatch] at hi
    split_ifs at hi
    · cases hi
    · rcases List.mem_append.mp hi with hi | hi
      · rw [h i hi]
        decide
      · rw [List.mem_singleton.mp hi]
        decide
  exact if_neg fun hkey => htype hkey.1

lemma type_wheelAxis {axis axisHiRes : UInt16} {detents fine : Int32} (i : RawInputEvent)
    (hi : i ∈ wheelAxis axis axisHiRes detents fine) : i.type = evRel := by
  rw [wheelAxis] at hi
  rcases List.mem_append.mp hi with hi | hi
  · split_ifs at hi
    · cases hi
    · rw [List.mem_singleton.mp hi]
  · split_ifs at hi
    · cases hi
    · rw [List.mem_singleton.mp hi]

lemma sendKey_of_code {d : UinputDevice} {event : KeyEvent} {code : UInt16}
    (hcode : hidToEvdev event.usage = some code) :
    d.sendKey event =
      if event.pressed ∧ code ∈ d.pressedKeys then .ok d []
      else
        .ok { d with
            pressedKeys := if event.pressed then d.pressedKeys.insert code
              else d.pressedKeys.erase code }
          (emit evKey code (if event.pressed then 1 else 0)) := by
  rw [sendKey, hcode]

lemma sendKey_turned (d : UinputDevice) (event : KeyEvent)
    (hok : (d.sendKey event).result = .ok ()) :
    uinputInjector.Turned (ctrlAfter (uinputInjector.ctrl d) (.key event)) d
      (d.sendKey event) := by
  obtain ⟨code, hcode⟩ : ∃ code, hidToEvdev event.usage = some code := by
    rcases hcode : hidToEvdev event.usage with _ | code
    · rw [sendKey, hcode] at hok
      cases hok
    · exact ⟨code, rfl⟩
  have hctrl : event.usage = hidLeftCtrl ↔ code = 29 := by
    rw [hidLeftCtrl, ← hidToEvdev_eq_ctrl_iff, hcode, Option.some.injEq]
  simp only [ctrlAfter, hctrl]
  rw [sendKey_of_code hcode]
  by_cases hheld : event.pressed = true ∧ code ∈ d.pressedKeys
  · -- A repeat: nothing is emitted, and Ctrl is down if it is the key.
    rw [if_pos hheld]
    split_ifs with hcodeCtrl
    · subst hcodeCtrl
      refine ⟨?_, ?_⟩ <;> simp [Sent.ok, deviceCtrl, ctrl_eq, hheld]
    · exact ⟨rfl, rfl⟩
  · rw [if_neg hheld]
    by_cases hcodeCtrl : code = 29
    · subst hcodeCtrl
      cases event.pressed <;> refine ⟨?_, ?_⟩ <;> simp [Sent.ok, deviceCtrl_emit, ctrl_eq]
    · refine ⟨by simp [Sent.ok, deviceCtrl_emit, hcodeCtrl], ?_⟩
      cases event.pressed <;> simp [Sent.ok, ctrl_eq, hcodeCtrl, Ne.symm hcodeCtrl]

/-- The device renders the steps of a zoom, and knows how its Ctrl is. -/
lemma zooms : uinputInjector.Zooms where
  key := sendKey_turned
  button d button pressed := by
    refine ⟨?_, by simp [uinputInjector, send, Sent.ok, ReceiverInjector.ctrl, keyPressed]⟩
    show deviceCtrl _ (emit evKey (buttonCode button) _) = _
    rw [deviceCtrl_emit, if_neg (buttonCode_ne_ctrl button)]
  releaseAll d _ := by
    refine ⟨?_, (ctrl_eq _).trans (decide_eq_false BTreeSet.not_mem_empty)⟩
    show deviceCtrl _ (_ ++ _) = _
    rw [deviceCtrl_append, deviceCtrl_releases, deviceCtrl_releases, ctrl_eq]
    simp [BTreeSet.mem_def]
  takesCtrl d pressed repeated := by
    have hcode : hidToEvdev hidLeftCtrl = some 29 := hidToEvdev_eq_ctrl_iff.mpr rfl
    show (d.sendKey ⟨hidLeftCtrl, pressed, repeated⟩).result = _
    rw [sendKey_of_code hcode]
    split_ifs <;> rfl
  strikes d pressed repeated := by
    have hcode : hidToEvdev hidLeftCtrl = some 29 := hidToEvdev_eq_ctrl_iff.mpr rfl
    show ∀ i ∈ (d.sendKey ⟨hidLeftCtrl, pressed, repeated⟩).inputs, _
    rw [sendKey_of_code hcode]
    by_cases hheld : pressed = true ∧ 29 ∈ d.pressedKeys
    · rw [if_pos hheld]
      exact fun i hi => absurd hi List.not_mem_nil
    · rw [if_neg hheld]
      intro i hi
      rcases List.mem_cons.mp hi with rfl | hi
      · rfl
      · rw [List.mem_singleton.mp hi]
        rfl
  takesWheel _ _ := rfl
  wheel _ _ := rfl
  quiet d y := quiet_emitBatch fun i hi =>
    (List.mem_append.mp hi).elim (type_wheelAxis i) (type_wheelAxis i)
  turns d y hy := by
    refine ⟨⟨evRel, relWheelHiRes, y⟩, mem_emitBatch (List.mem_append_left _ ?_), by rfl⟩
    rw [wheelAxis, if_neg hy]
    exact List.mem_append_right _ (List.mem_singleton_self _)

end UinputDevice

/-! ### The Win32 injector -/

namespace Win32Injector

open Win32

lemma ctrl_eq (d : Win32Injector) : win32Injector.ctrl d = decide (hidLeftCtrl ∈ d.pressedKeys) :=
  rfl

/-- The wheel steps of a spread, which leave Ctrl alone. -/
lemma quiet_wheelInputs (delta : Int32) :
    ∀ i ∈ wheelInputs delta 0, DeviceEvent.ctrl i = none := by
  intro i hi
  rcases List.mem_append.mp hi with hi | hi
  · obtain ⟨amount, -, rfl⟩ := List.mem_map.mp hi
    rfl
  · obtain ⟨amount, -, rfl⟩ := List.mem_map.mp hi
    rfl

lemma exists_wheel {delta : Int32} (h : delta ≠ 0) :
    ∃ i ∈ wheelInputs delta 0, DeviceEvent.wheel i = true := by
  have hint : delta.toInt ≠ 0 := fun hzero => h (Int32.toInt_inj.mp hzero)
  have hclamped : (max (-12000) (min delta.toInt 12000)).natAbs ≠ 0 := by omega
  rcases hchunks : wheelChunks delta with _ | ⟨amount, chunks⟩
  · rw [wheelChunks, List.map_eq_nil_iff, notches, if_neg hclamped] at hchunks
    cases hchunks
  · refine ⟨.wheel amount, ?_, rfl⟩
    rw [wheelInputs, hchunks]
    exact List.mem_append_left _ List.mem_cons_self

/-- A tap of a held key ends with its press. -/
lemma deviceCtrl_keyInputsFor (ctrl : Bool) (virtualKey scanCode : UInt16)
    (extended pressed held : Bool) :
    deviceCtrl ctrl (keyInputsFor virtualKey scanCode extended pressed held) =
      if virtualKey = 0 ∧ scanCode = 0x1d ∧ extended = false then pressed else ctrl := by
  rw [keyInputsFor]
  by_cases hcode : virtualKey = 0 ∧ scanCode = 0x1d ∧ extended = false
  · cases pressed <;> cases held <;> simp [deviceCtrl, DeviceEvent.ctrl, hcode]
  · cases pressed <;> cases held <;>
      simp only [deviceCtrl, DeviceEvent.ctrl, Bool.and_true, Bool.and_false, Bool.false_eq_true,
        if_true, if_false, List.foldl_cons, List.foldl_nil, if_neg hcode, Option.getD_none]

lemma sendKey_turned (d : Win32Injector) (event : KeyEvent)
    (hok : (d.sendKey event).result = .ok ()) :
    win32Injector.Turned (ctrlAfter (win32Injector.ctrl d) (.key event)) d
      (d.sendKey event) := by
  obtain ⟨code, hcode⟩ : ∃ code, keyCode event.usage = some code := by
    rcases hcode : keyCode event.usage with _ | code
    · rw [sendKey, hcode] at hok
      cases hok
    · exact ⟨code, rfl⟩
  obtain ⟨virtualKey, scanCode, extended⟩ := code
  have hctrl : event.usage = hidLeftCtrl ↔
      virtualKey = 0 ∧ scanCode = 0x1d ∧ extended = false := by
    rw [hidLeftCtrl, ← keyCode_eq_ctrl_iff, hcode, Option.some.injEq, Prod.mk.injEq, Prod.mk.injEq]
  rw [sendKey, hcode]
  refine ⟨?_, ?_⟩
  · simp only [Sent.ok, ctrlAfter, hctrl]
    exact deviceCtrl_keyInputsFor _ _ _ _ _ _
  · rw [ctrlAfter, ctrl_eq, ctrl_eq]
    rcases eq_or_ne event.usage hidLeftCtrl with heq | hne
    · rw [if_pos heq]
      cases event.pressed <;> simp [Sent.ok, heq]
    · rw [if_neg hne]
      cases event.pressed <;> simp [Sent.ok, hne.symm]

/-- The end of a gesture takes Ctrl up if the gesture holds it. -/
lemma endPinch_turned (d : Win32Injector) :
    win32Injector.Turned (win32Injector.ctrl d && !d.fallbackCtrl) d
      (.ok d.endPinch.1 d.endPinch.2) := by
  rw [endPinch]
  cases hheld : d.fallbackCtrl with
  | false => exact ⟨(Bool.and_true _).symm, (Bool.and_true _).symm⟩
  | true =>
    refine ⟨by simp [Sent.ok, deviceCtrl, DeviceEvent.ctrl], ?_⟩
    rw [ctrl_eq]
    simp [Sent.ok, hidLeftCtrl]

@[simp] lemma endPinch_fallbackCtrl (d : Win32Injector) : d.endPinch.1.fallbackCtrl = false := by
  rw [endPinch]
  split_ifs with hheld
  · rfl
  · simpa using hheld

/-- What a release or a state report sends. -/
lemma send_turned (d : Win32Injector) {event : InputEvent}
    (hplain : (InjectorCall.send event).Plain) (hok : (d.send event).result = .ok ()) :
    win32Injector.Turned (ctrlAfter (win32Injector.ctrl d) event) d (d.send event) ∧
      (d.send event).injector.fallbackCtrl = d.fallbackCtrl := by
  cases event with
  | key event =>
    refine ⟨sendKey_turned d event hok, ?_⟩
    show (d.sendKey event).injector.fallbackCtrl = _
    rw [sendKey]
    rcases keyCode event.usage with _ | code
    · rfl
    · rfl
  | mouseButton button pressed => exact ⟨⟨rfl, rfl⟩, rfl⟩
  | _ => exact hplain.elim

/-- The releases of `release_all`, of which none fails. -/
lemma foldl_always {ctrl : Bool} {d : Win32Injector} {sent : Sent Win32Injector Input}
    (hsent : win32Injector.Turned ctrl d sent) (hheld : sent.injector.fallbackCtrl = false)
    {events : List InputEvent} (hplain : ∀ event ∈ events, (InjectorCall.send event).Plain)
    (hok : (events.foldl (fun sent event => sent.always (send · event)) sent).result = .ok ()) :
    win32Injector.Turned (events.foldl ctrlAfter ctrl) d
        (events.foldl (fun sent event => sent.always (send · event)) sent) ∧
      (events.foldl (fun sent event => sent.always (send · event)) sent).injector.fallbackCtrl =
        false := by
  have hfirst : ∀ (events : List InputEvent) (sent : Sent Win32Injector Input),
      (events.foldl (fun sent event => sent.always (send · event)) sent).result = .ok () →
      sent.result = .ok () := by
    intro events
    induction events with
    | nil => exact fun _ hok => hok
    | cons event events ih => exact fun sent hok => (Sent.always_ok (ih _ hok)).1
  induction events generalizing ctrl sent with
  | nil => exact ⟨hsent, hheld⟩
  | cons event events ih =>
    obtain ⟨hevent, hevents⟩ := List.forall_mem_cons.mp hplain
    have hnext := (Sent.always_ok (hfirst _ _ hok)).2
    obtain ⟨hturned, hkept⟩ := send_turned sent.injector hevent hnext
    rw [hsent.known] at hturned
    have hboth := hsent.trans hturned
    exact ih ⟨hboth.device, hboth.known⟩ (hkept.trans hheld) hevents hok

lemma releaseAll_turned (d : Win32Injector) (hok : d.releaseAll.result = .ok ()) :
    win32Injector.Turned false d d.releaseAll ∧ d.releaseAll.injector.fallbackCtrl = false := by
  have hplain : ∀ event ∈ (d.endPinch.1.pressedKeys.toList.map
      fun usage => InputEvent.key ⟨usage, false, false⟩) ++
      d.endPinch.1.pressedButtons.toList.map fun button => InputEvent.mouseButton button false,
      (InjectorCall.send event).Plain := by
    intro event hevent
    rcases List.mem_append.mp hevent with hkey | hbutton
    · obtain ⟨usage, -, rfl⟩ := List.mem_map.mp hkey
      trivial
    · obtain ⟨button, -, rfl⟩ := List.mem_map.mp hbutton
      trivial
  have hend := endPinch_turned d
  obtain ⟨hturned, hheld⟩ := foldl_always hend (endPinch_fallbackCtrl d) hplain hok
  refine ⟨?_, hheld⟩
  -- Behind the end of the gesture Ctrl is down exactly if it is among the held keys.
  have hup : (if hidLeftCtrl ∈ d.endPinch.1.pressedKeys.toList then false
      else win32Injector.ctrl d && !d.fallbackCtrl) = false := by
    rw [← hend.known, ctrl_eq]
    simp [Sent.ok, BTreeSet.mem_def]
  rw [foldl_ctrlAfter, hup] at hturned
  exact hturned

lemma knowsCtrl : win32Injector.KnowsCtrl where
  key := sendKey_turned
  button _ _ _ := ⟨rfl, rfl⟩
  releaseAll d hok := (releaseAll_turned d hok).1

/-- Calls keep the hold of a gesture unless they release everything. -/
lemma run_fallbackCtrl {calls : List InjectorCall} (hplain : ∀ call ∈ calls, call.Plain)
    (d : Win32Injector) (hok : (win32Injector.run d calls).result = .ok ()) :
    (win32Injector.run d calls).injector.fallbackCtrl =
      (d.fallbackCtrl && !decide (.releaseAll ∈ calls)) := by
  induction calls generalizing d with
  | nil => exact (Bool.and_true _).symm
  | cons call calls ih =>
    obtain ⟨hcall, hcalls⟩ := List.forall_mem_cons.mp hplain
    rcases hresult : (win32Injector.call d call).result with error | ⟨⟨⟩⟩
    · rw [ReceiverInjector.run_error hresult, hresult] at hok
      cases hok
    · rw [ReceiverInjector.run_ok hresult] at hok ⊢
      refine (ih hcalls _ hok).trans ?_
      cases call with
      | send event =>
        rw [show (win32Injector.call d (.send event)).injector.fallbackCtrl = d.fallbackCtrl
          from (send_turned d hcall hresult).2]
        simp
      | releaseAll =>
        rw [show (win32Injector.call d .releaseAll).injector.fallbackCtrl = false
          from (releaseAll_turned d hresult).2]
        simp
      | _ => exact hcall.elim

/-- A spread takes the hold if neither it nor the peer has Ctrl, and steps the wheel. -/
lemma fallbackPinchWheel_turned (d : Win32Injector) {delta : Int32} (hne : delta ≠ 0) :
    win32Injector.Turned (win32Injector.ctrl d || !d.fallbackCtrl) d
        (.ok (d.fallbackPinchWheel delta).1 (d.fallbackPinchWheel delta).2) ∧
      (d.fallbackPinchWheel delta).1.fallbackCtrl =
        (d.fallbackCtrl || !win32Injector.ctrl d) ∧
      (WheelsCovered (win32Injector.ctrl d) (d.fallbackPinchWheel delta).2 ↔
        (win32Injector.ctrl d || !d.fallbackCtrl) = true) := by
  have hquiet := quiet_wheelInputs delta
  have hctrl : d.keyPressed 0xe0 = win32Injector.ctrl d := rfl
  rw [fallbackPinchWheel, if_neg hne, hctrl]
  by_cases hheld : (d.fallbackCtrl || win32Injector.ctrl d) = true
  · have hsame : (win32Injector.ctrl d || !d.fallbackCtrl) = win32Injector.ctrl d := by
      cases hcase : d.fallbackCtrl <;> simp_all
    have hkept : d.fallbackCtrl = (d.fallbackCtrl || !win32Injector.ctrl d) := by
      cases hcase : d.fallbackCtrl <;> simp_all
    rw [if_pos hheld, hsame]
    refine ⟨⟨deviceCtrl_of_none hquiet, rfl⟩, hkept, ?_⟩
    rw [wheelsCovered_iff hquiet]
    exact ⟨fun hcovered => hcovered (exists_wheel hne), fun hdown _ => hdown⟩
  · obtain ⟨hfallback, hup⟩ : d.fallbackCtrl = false ∧ win32Injector.ctrl d = false := by
      simpa using hheld
    rw [if_neg hheld, hfallback, hup]
    refine ⟨⟨?_, ?_⟩, rfl, iff_of_true ?_ rfl⟩
    · rw [hup]
      exact deviceCtrl_of_none hquiet
    · rw [ctrl_eq]
      exact decide_eq_true (BTreeSet.mem_insert.mpr (Or.inl rfl))
    · exact ⟨fun hwheel => absurd hwheel Bool.false_ne_true,
        (wheelsCovered_iff hquiet).mpr fun _ => rfl⟩

end Win32Injector

/-! ### A session that is watched -/

namespace ZoomFrame

/-- The peer's Ctrl behind a frame. -/
def peerCtrl (ctrl : Bool) : ZoomFrame → Bool
  | .key event => ctrlAfter ctrl (.key event)
  | .stateSync state => decide (hidLeftCtrl ∈ state.pressedKeys)
  | .releaseAll => false
  | .pinch _ | .pinchEnd => ctrl

/-- Whether a gesture is in progress behind a frame. -/
def gesture (inGesture : Bool) : ZoomFrame → Bool
  | .pinch _ => true
  | .key _ => inGesture
  | .pinchEnd | .stateSync _ | .releaseAll => false

end ZoomFrame

/-- A way to render page zoom. -/
structure ZoomRenderer (σ ω : Type*) where
  injector : ReceiverInjector σ ω
  create : σ
  rendering : PinchRendering
  /-- Whether the gesture holds Ctrl. -/
  hold : ZoomSession σ → Bool
  /-- A release or a state report ends the hold. -/
  resetEnds : Bool
  /-- A spread of zero takes no hold. -/
  zeroIdles : Bool

/-- `handle_inbound_pinch` over a uinput device without a touch channel. -/
def expandedZoom : ZoomRenderer UinputDevice Evdev.RawInputEvent :=
  ⟨uinputInjector, .create, .touch none, ZoomSession.pinchHeld, false, false⟩

/-- The Win32 injector where touch injection is unavailable. -/
def fallbackZoom : ZoomRenderer Win32Injector Win32.Input :=
  ⟨win32Injector, .create, .native, fun e => e.injector.fallbackCtrl, true, true⟩

/-- The session, and the Ctrl it shares with the peer: down on the device, borrowed by the gesture,
owned by the peer. -/
structure ZoomWatch (σ : Type*) where
  session : ZoomSession σ
  key : SharedKey

namespace ZoomRenderer

variable {σ ω : Type*} [DeviceEvent ω] (r : ZoomRenderer σ ω)

def start : ZoomWatch σ := ⟨⟨r.create, false, false⟩, ⟨false, false, false, false, false⟩⟩

def step (w : ZoomWatch σ) (frame : ZoomFrame) : ZoomWatch σ × List ω :=
  let (session, inputs) := w.session.handle r.injector r.rendering frame
  (⟨session,
    { down := deviceCtrl w.key.down inputs
      borrowed := r.hold session
      owned := frame.peerCtrl w.key.owned
      lowered := r.hold session && (w.key.lowered || !frame.peerCtrl true)
      working := frame.gesture w.key.working }⟩, inputs)

def after (frames : List ZoomFrame) : ZoomWatch σ := Trace.final r.step r.start frames

/-- A frame that the session survives corrupts no Ctrl: a zoom step finds it held, the end of a
gesture does not release it while the peer holds it, and outside of gestures it is as the peer has
it. -/
structure Clean (w : ZoomWatch σ) (frame : ZoomFrame) : Prop where
  covered : ∀ delta, frame = .pinch delta → WheelsCovered w.key.down (r.step w frame).2
  kept : frame = .pinchEnd → w.key.owned = true →
    ∀ input ∈ (r.step w frame).2, DeviceEvent.ctrl input ≠ some false
  owners : (r.step w frame).1.key.working = false →
    (r.step w frame).1.key.down = (r.step w frame).1.key.owned

/-- The session survives a frame. -/
def Survives (w : ZoomWatch σ) (frame : ZoomFrame) : Prop :=
  (r.step w frame).1.session.ended = false

/-- What a frame does to the key. -/
def move : ZoomFrame → SharedKey.Move
  | .key event => if event.usage = hidLeftCtrl then .own event.pressed else .idle
  | .pinch delta => if delta = 0 ∧ r.zeroIdles then .start else .borrow (delta ≠ 0)
  | .pinchEnd => .giveBack
  | .stateSync state => .reset (decide (hidLeftCtrl ∈ state.pressedKeys)) r.resetEnds
  | .releaseAll => .reset false r.resetEnds

/-- The peer's Ctrl stays out of the gesture's hold: it is up when the hold ends, and no zoom step
follows its release within the hold. -/
def Undisturbed (w : ZoomWatch σ) (frame : ZoomFrame) : Prop :=
  w.session.ended = false → w.key.Undisturbed (r.move frame)

/-! ### One frame -/

/-- The watch and the session agree. -/
structure Linked (w : ZoomWatch σ) : Prop where
  down : w.key.down = r.injector.ctrl w.session.injector
  borrowed : w.key.borrowed = r.hold w.session

/-- The session, the device and the hold are behind a frame where its move takes the key. -/
structure Moved (w : ZoomWatch σ) (frame : ZoomFrame) (after : ZoomSession σ × List ω) : Prop where
  ended : after.1.ended = false
  device : deviceCtrl w.key.down after.2 = (w.key.step (r.move frame)).down
  known : r.injector.ctrl after.1.injector = (w.key.step (r.move frame)).down
  hold : r.hold after.1 = (w.key.step (r.move frame)).borrowed

/-- The calls and the gestures of a renderer do with Ctrl and the hold what they should. -/
structure Faithful : Prop where
  knows : r.injector.KnowsCtrl
  hold (e : ZoomSession σ) (calls : List InjectorCall) : (∀ call ∈ calls, call.Plain) →
    (r.injector.run e.injector calls).result = .ok () →
    r.hold ⟨(r.injector.run e.injector calls).injector, e.pinchHeld, false⟩ =
      (r.hold e && !(r.resetEnds && decide (.releaseAll ∈ calls)))
  pinch (w : ZoomWatch σ) (delta : Int32) : r.Linked w →
    let after := w.session.gesture r.injector r.rendering (.pinch delta)
    r.Moved w (.pinch delta) after ∧ (WheelsCovered w.key.down after.2 ↔
      (delta ≠ 0 → (w.key.step (r.move (.pinch delta))).down = true))
  pinchEnd (w : ZoomWatch σ) : r.Linked w →
    let after := w.session.gesture r.injector r.rendering .pinchEnd
    r.Moved w .pinchEnd after ∧ (w.key.borrowed = false → after.2 = [])

variable {r} {w : ZoomWatch σ}

/-- A frame that is calls on keys and buttons. -/
lemma Faithful.calls (h : r.Faithful) (hl : r.Linked w) {calls : List InjectorCall}
    (hplain : ∀ call ∈ calls, call.Plain) {frame : ZoomFrame}
    (hended : (ZoomSession.settle r.injector w.session.pinchHeld
      (r.injector.run w.session.injector calls)).1.ended = false)
    (hdown : (w.key.step (r.move frame)).down =
      calls.foldl InjectorCall.ctrlAfter w.key.down)
    (hborrowed : (w.key.step (r.move frame)).borrowed =
      (w.key.borrowed && !(r.resetEnds && decide (.releaseAll ∈ calls)))) :
    r.Moved w frame (ZoomSession.settle r.injector w.session.pinchHeld
      (r.injector.run w.session.injector calls)) := by
  rcases hresult : (r.injector.run w.session.injector calls).result with error | ⟨⟨⟩⟩
  · rw [ZoomSession.settle, hresult] at hended
    cases hended
  · have hturned := h.knows.run hplain w.session.injector hresult
    have hhold := h.hold w.session calls hplain hresult
    rw [hl.down] at hdown
    rw [hl.borrowed] at hborrowed
    rw [ZoomSession.settle, hresult]
    refine ⟨rfl, ?_, hturned.known.trans hdown.symm, hhold.trans hborrowed.symm⟩
    rw [hdown, hl.down]
    exact hturned.device

/-- What a session survives takes the key where the move of the frame does. -/
lemma Faithful.moved (h : r.Faithful) (hl : r.Linked w) (hlive : w.session.ended = false)
    {frame : ZoomFrame} (hs : r.Survives w frame) :
    r.Moved w frame (w.session.handle r.injector r.rendering frame) := by
  replace hs : (w.session.handle r.injector r.rendering frame).1.ended = false := hs
  rw [ZoomSession.handle_live hlive] at hs ⊢
  cases frame with
  | key event =>
    refine h.calls hl (by simp [InjectorCall.Plain]) hs ?_ ?_
    · simp only [move, List.foldl_cons, List.foldl_nil, InjectorCall.ctrlAfter, ctrlAfter]
      split_ifs <;> rfl
    · simp only [move]
      split_ifs <;> simp [SharedKey.step]
  | stateSync state =>
    simp only at hs ⊢
    rcases hsync : syncState state with error | ⟨⟨⟩⟩
    · rw [hsync] at hs
      cases hs
    · rw [hsync] at hs
      have hplain : ∀ call ∈ InjectorCall.releaseAll :: state.presses, call.Plain :=
        List.forall_mem_cons.mpr ⟨trivial, InputState.plain_presses⟩
      refine h.calls hl hplain hs ?_ (by simp [move, SharedKey.step])
      rw [List.foldl_cons, InputState.foldl_presses]
      simp [move, SharedKey.step, InjectorCall.ctrlAfter]
  | releaseAll =>
    exact h.calls hl (by simp [InjectorCall.Plain]) hs rfl (by simp [move, SharedKey.step])
  | pinch delta => exact (h.pinch w delta hl).1
  | pinchEnd => exact (h.pinchEnd w hl).1

omit [DeviceEvent ω] in
/-- The key's owner is the peer. -/
lemma owned_move (key : SharedKey) (frame : ZoomFrame) :
    (key.step (r.move frame)).owned = frame.peerCtrl key.owned := by
  cases frame with
  | key event =>
    simp only [move, ZoomFrame.peerCtrl, ctrlAfter]
    split_ifs <;> rfl
  | pinch delta =>
    rw [move]
    split_ifs <;> rfl
  | _ => rfl

omit [DeviceEvent ω] in
lemma working_move (key : SharedKey) (frame : ZoomFrame) :
    (key.step (r.move frame)).working = frame.gesture key.working := by
  cases frame with
  | key event =>
    rw [move]
    split_ifs <;> rfl
  | pinch delta =>
    rw [move]
    split_ifs with hidle
    · rfl
    · rfl
  | _ => rfl

omit [DeviceEvent ω] in
lemma lowered_move {key : SharedKey} (h : key.lowered = true → key.borrowed = true)
    (frame : ZoomFrame) :
    (key.step (r.move frame)).lowered =
      ((key.step (r.move frame)).borrowed && (key.lowered || !frame.peerCtrl true)) := by
  have hlow : (key.borrowed && key.lowered) = key.lowered := by
    cases hlowered : key.lowered with
    | false => exact Bool.and_false _
    | true => rw [h hlowered, Bool.and_true]
  cases frame with
  | key event =>
    simp only [move, ZoomFrame.peerCtrl, ctrlAfter]
    split_ifs
    · rfl
    · simp [SharedKey.step, hlow]
  | pinch delta =>
    simp only [move, ZoomFrame.peerCtrl]
    split_ifs
    · simp [SharedKey.step, hlow]
    · cases hborrowed : key.borrowed <;> cases hlowered : key.lowered <;>
        simp_all [SharedKey.step]
  | pinchEnd => rfl
  | stateSync state => rfl
  | releaseAll => simp [move, SharedKey.step, ZoomFrame.peerCtrl]

/-- A frame moves the key. -/
lemma Faithful.step (h : r.Faithful) (hl : r.Linked w) (hin : w.key.InStep)
    (hlive : w.session.ended = false) {frame : ZoomFrame} (hs : r.Survives w frame) :
    r.Linked (r.step w frame).1 ∧ (r.step w frame).1.key = w.key.step (r.move frame) := by
  obtain ⟨-, hdown, hknown, hhold⟩ := h.moved hl hlive hs
  refine ⟨⟨hdown.trans hknown.symm, rfl⟩, SharedKey.ext hdown hhold ?_ ?_ ?_⟩
  · exact (owned_move w.key frame).symm
  · rw [lowered_move hin.lowered frame, ← hhold]
    rfl
  · exact (working_move w.key frame).symm

/-! ### Every run -/

/-- While the session lives, its Ctrl is in step. -/
def InStep (r : ZoomRenderer σ ω) (w : ZoomWatch σ) : Prop :=
  w.session.ended = false → r.Linked w ∧ w.key.InStep

/-- What has ended stays so. -/
lemma live_of_survives {frame : ZoomFrame} (hs : r.Survives w frame) :
    w.session.ended = false := by
  by_contra hended
  have hended : w.session.ended = true := by simpa using hended
  have hsame : (w.session.handle r.injector r.rendering frame).1.ended = true := by
    rw [ZoomSession.handle_ended hended]
    exact hended
  exact Bool.false_ne_true (Eq.trans (Eq.symm hs) hsame)

lemma Faithful.inStep (h : r.Faithful) (hw : InStep r w) {frame : ZoomFrame}
    (hu : r.Undisturbed w frame) : InStep r (r.step w frame).1 := by
  intro hs
  have hlive : w.session.ended = false := live_of_survives (show r.Survives w frame from hs)
  obtain ⟨hl, hin⟩ := hw hlive
  obtain ⟨hl', hkey⟩ := h.step hl hin hlive hs
  refine ⟨hl', ?_⟩
  rw [hkey]
  exact hin.step (hu hlive)

/-- A frame is fair to the key exactly if it is clean. -/
lemma Faithful.clean_iff_fair (h : r.Faithful) (hl : r.Linked w) (hin : w.key.InStep)
    (hlive : w.session.ended = false) {frame : ZoomFrame} (hs : r.Survives w frame) :
    r.Clean w frame ↔ w.key.Fair (r.move frame) := by
  obtain ⟨-, hkey⟩ := h.step hl hin hlive hs
  have houts : (r.step w frame).2 = (w.session.handle r.injector r.rendering frame).2 := rfl
  rw [ZoomSession.handle_live hlive] at houts
  constructor
  · intro hclean
    refine ⟨fun hborrow => ?_, fun hgive howned => ?_, hkey ▸ hclean.owners⟩
    · cases frame with
      | pinch delta =>
        have hne : delta ≠ 0 := by
          rintro rfl
          rw [move] at hborrow
          split_ifs at hborrow
          simp at hborrow
        have hcovered := hclean.covered delta rfl
        rw [houts] at hcovered
        exact (h.pinch w delta hl).2.mp hcovered hne
      | key event =>
        rw [move] at hborrow
        split_ifs at hborrow
      | _ => cases hborrow
    · cases frame with
      | pinchEnd =>
        by_contra hborrowed
        -- The key is down for its owner, and the end of the gesture takes it up.
        have hborrowed : w.key.borrowed = true := by simpa using hborrowed
        have hdown : w.key.down = true := by rw [hin.down, howned, Bool.true_or]
        have hend := (h.pinchEnd w hl).1.device
        rw [hdown, move, SharedKey.step, hdown, hborrowed] at hend
        obtain ⟨input, hinput, hrelease⟩ := exists_release hend
        exact hclean.kept rfl howned input (houts ▸ hinput) hrelease
      | key event =>
        rw [move] at hgive
        split_ifs at hgive
      | pinch delta =>
        rw [move] at hgive
        split_ifs at hgive
      | _ => cases hgive
  · intro hfair
    refine ⟨?_, ?_, hkey ▸ hfair.owners⟩
    · rintro delta rfl
      rw [houts]
      refine (h.pinch w delta hl).2.mpr fun hne => hfair.used ?_
      rw [move, if_neg fun hidle => hne hidle.1, decide_eq_true hne]
    · rintro rfl howned input hinput
      rw [houts, (h.pinchEnd w hl).2 (hfair.kept rfl howned)] at hinput
      cases hinput

/-- Only gestures disturb a hold, and a session survives those. -/
lemma Faithful.survives (h : r.Faithful) (hl : r.Linked w) (hlive : w.session.ended = false)
    {frame : ZoomFrame} (hu : ¬w.key.Undisturbed (r.move frame)) : r.Survives w frame := by
  show (w.session.handle r.injector r.rendering frame).1.ended = false
  rw [ZoomSession.handle_live hlive]
  cases frame with
  | pinch delta => exact (h.pinch w delta hl).1.ended
  | pinchEnd => exact (h.pinchEnd w hl).1.ended
  | key event =>
    refine absurd ?_ hu
    rw [move]
    split_ifs <;> trivial
  | _ => exact absurd trivial hu

/-- A frame is clean exactly if it disturbs no hold. -/
lemma Faithful.clean_iff (h : r.Faithful) (hw : InStep r w) (frame : ZoomFrame) :
    (r.Survives w frame → r.Clean w frame) ↔ r.Undisturbed w frame := by
  constructor
  · intro hclean hlive
    obtain ⟨hl, hin⟩ := hw hlive
    by_contra hu
    have hs := h.survives hl hlive hu
    exact hu ((hin.fair_iff _).mp ((h.clean_iff_fair hl hin hlive hs).mp (hclean hs)))
  · intro hu hs
    have hlive := live_of_survives hs
    obtain ⟨hl, hin⟩ := hw hlive
    exact (h.clean_iff_fair hl hin hlive hs).mpr ((hin.fair_iff _).mpr (hu hlive))

/-- Along the runs of a session every frame is clean exactly if none disturbs a hold. -/
lemma Faithful.each_clean_iff (h : r.Faithful) (hstart : InStep r r.start)
    (frames : List ZoomFrame) :
    Trace.Each (fun m frame => r.Survives (r.after m) frame → r.Clean (r.after m) frame) frames ↔
      Trace.Each (fun m => r.Undisturbed (r.after m)) frames := by
  refine Trace.each_congr fun m frame hm => ?_
  have hin : InStep r (r.after m) :=
    Trace.invariant (I := fun _ w => InStep r w) hstart (fun _ _ hw hu => h.inStep hw hu) hm
  exact h.clean_iff hin frame

end ZoomRenderer

/-! ### The two renderers -/

section

variable {σ ω : Type*} {inj : ReceiverInjector σ ω} {e : ZoomSession σ}

lemma mem_heldCtrl (s : σ) :
    decide (hidLeftCtrl ∈ (inj.heldCtrl s).keys) = inj.keyPressed s hidLeftCtrl := by
  rw [ReceiverInjector.heldCtrl]
  cases inj.keyPressed s hidLeftCtrl <;> simp

/-- A spread takes the hold if neither it nor the peer has Ctrl. -/
lemma gesture_pinch (delta : Int32) :
    e.gesture inj (.touch none) (.pinch delta) =
      ZoomSession.settle inj
        (e.pinchHeld || (!e.pinchHeld && !inj.keyPressed e.injector hidLeftCtrl))
        (inj.run e.injector (ReceiverInjector.zoomCalls
          (!e.pinchHeld && !inj.keyPressed e.injector hidLeftCtrl) delta)) := by
  rw [ZoomSession.gesture, handleInboundPinch, mem_heldCtrl]
  by_cases hzero : delta = 0 <;> cases e.pinchHeld <;>
    cases inj.keyPressed e.injector hidLeftCtrl <;>
    simp [pinchExpansion, ReceiverInjector.zoomCalls, ReceiverInjector.pressCtrl, hzero]

/-- An injector that renders gestures itself. -/
lemma gesture_native {event : InputEvent} (hok : (inj.send e.injector event).result = .ok ()) :
    e.gesture inj .native event =
      (⟨(inj.send e.injector event).injector, e.pinchHeld, false⟩,
        (inj.send e.injector event).inputs) := by
  have hcall : (inj.call e.injector (.send event)).result = .ok () := hok
  show ZoomSession.settle inj e.pinchHeld (inj.run e.injector [.send event]) = _
  rw [ReceiverInjector.run_ok hcall]
  simp [ReceiverInjector.run, ReceiverInjector.call, Sent.ok, ZoomSession.settle]

lemma gesture_pinchEnd :
    e.gesture inj (.touch none) .pinchEnd =
      ZoomSession.settle inj false (inj.run e.injector
        (.endPinch :: if e.pinchHeld then [.send (.key ⟨hidLeftCtrl, false, false⟩)] else [])) := by
  rw [ZoomSession.gesture, handleInboundPinch]
  cases hheld : e.pinchHeld <;> simp [pinchExpansion]

end

/-- The expansion of gestures over the uinput device. -/
lemma expandedZoom_faithful : expandedZoom.Faithful where
  knows := UinputDevice.zooms.toKnowsCtrl
  hold e calls _ _ := by simp [expandedZoom]
  pinch w delta hl := by
    obtain ⟨hdown, hborrowed⟩ := hl
    replace hdown : w.key.down = uinputInjector.keyPressed w.session.injector hidLeftCtrl := hdown
    replace hborrowed : w.key.borrowed = w.session.pinchHeld := hborrowed
    obtain ⟨hok, ⟨hdevice, hknown⟩, hcovered⟩ := UinputDevice.zooms.run_zoom w.session.injector
      (!w.session.pinchHeld && !uinputInjector.keyPressed w.session.injector hidLeftCtrl) delta
    have htake : ∀ down held : Bool, (down || !held && !down) = (down || !held) := by decide
    have hhold : ∀ down held : Bool, (held || !held && !down) = (held || !down) := by decide
    have hmove : expandedZoom.move (.pinch delta) = .borrow (delta ≠ 0) := by
      rw [ZoomRenderer.move, if_neg fun hidle => Bool.false_ne_true hidle.2]
    have hstep : (w.key.step (expandedZoom.move (.pinch delta))).down =
        (uinputInjector.ctrl w.session.injector || !w.session.pinchHeld &&
          !uinputInjector.keyPressed w.session.injector hidLeftCtrl) := by
      rw [hmove, SharedKey.step, hdown, hborrowed, ReceiverInjector.ctrl, htake]
    show expandedZoom.Moved w _ (w.session.gesture uinputInjector (.touch none) (.pinch delta)) ∧
      (WheelsCovered w.key.down
        (w.session.gesture uinputInjector (.touch none) (.pinch delta)).2 ↔ _)
    rw [gesture_pinch, ZoomSession.settle_ok hok, hstep, hdown]
    refine ⟨⟨rfl, ?_, hknown.trans hstep.symm, ?_⟩, hcovered⟩
    · rw [hdown, hstep]
      exact hdevice
    · rw [hmove, SharedKey.step, hdown, hborrowed]
      exact hhold _ _
  pinchEnd w hl := by
    obtain ⟨hdown, hborrowed⟩ := hl
    replace hdown : w.key.down = uinputInjector.ctrl w.session.injector := hdown
    replace hborrowed : w.key.borrowed = w.session.pinchHeld := hborrowed
    have hend : (uinputInjector.call w.session.injector .endPinch).result = .ok () := rfl
    show expandedZoom.Moved w _ (w.session.gesture uinputInjector (.touch none) .pinchEnd) ∧
      (_ → (w.session.gesture uinputInjector (.touch none) .pinchEnd).2 = [])
    rw [gesture_pinchEnd, ReceiverInjector.run_ok hend]
    cases hheld : w.session.pinchHeld with
    | false =>
      refine ⟨⟨rfl, ?_, ?_, rfl⟩, fun _ => rfl⟩
      · show w.key.down = (w.key.down && !w.key.borrowed)
        rw [hborrowed, hheld, Bool.not_false, Bool.and_true]
      · show uinputInjector.ctrl w.session.injector = (w.key.down && !w.key.borrowed)
        rw [hborrowed, hheld, Bool.not_false, Bool.and_true, hdown]
    | true =>
      have hok : (uinputInjector.call w.session.injector
          (.send (.key ⟨hidLeftCtrl, false, false⟩))).result = .ok () :=
        UinputDevice.zooms.takesCtrl w.session.injector false false
      obtain ⟨hdevice, hknown⟩ := UinputDevice.zooms.key w.session.injector _ hok
      rw [ctrlAfter_ctrl] at hdevice hknown
      have hup : (w.key.step .giveBack).down = false := by
        rw [SharedKey.step, hborrowed, hheld, Bool.not_true, Bool.and_false]
      have hrelease := @ReceiverInjector.run_ok _ _ _ _ _ [] hok
      rw [if_pos rfl, show (uinputInjector.call w.session.injector .endPinch).injector =
        w.session.injector from rfl, hrelease]
      refine ⟨⟨rfl, ?_, ?_, rfl⟩, fun hnot => ?_⟩
      · refine Eq.trans ?_ hup.symm
        rw [hdown]
        simpa [ZoomSession.settle, ReceiverInjector.run, ReceiverInjector.call, Sent.ok]
          using hdevice
      · exact hknown.trans hup.symm
      · rw [hborrowed, hheld] at hnot
        cases hnot

/-- The Win32 injector's own gestures. -/
lemma fallbackZoom_faithful : fallbackZoom.Faithful where
  knows := Win32Injector.knowsCtrl
  hold e calls hplain hok := Win32Injector.run_fallbackCtrl hplain e.injector hok
  pinch w delta hl := by
    obtain ⟨hdown, hborrowed⟩ := hl
    replace hdown : w.key.down = win32Injector.ctrl w.session.injector := hdown
    replace hborrowed : w.key.borrowed = w.session.injector.fallbackCtrl := hborrowed
    have hgesture := @gesture_native _ _ win32Injector w.session (.pinch delta) rfl
    show fallbackZoom.Moved w _ (w.session.gesture win32Injector .native (.pinch delta)) ∧
      (WheelsCovered w.key.down
        (w.session.gesture win32Injector .native (.pinch delta)).2 ↔ _)
    rw [hgesture]
    rcases eq_or_ne delta 0 with rfl | hne
    · -- A spread of zero does nothing.
      have hnone : w.session.injector.fallbackPinchWheel 0 = (w.session.injector, []) := if_pos rfl
      have hsend : win32Injector.send w.session.injector (.pinch 0) =
          .ok w.session.injector [] := by
        show Sent.ok _ _ = _
        rw [hnone]
      rw [hsend]
      exact ⟨⟨rfl, rfl, hdown.symm, hborrowed.symm⟩,
        iff_of_true trivial fun hne => absurd rfl hne⟩
    · have hmove : fallbackZoom.move (.pinch delta) = .borrow (delta ≠ 0) := by
        rw [ZoomRenderer.move, if_neg fun hidle => hne hidle.1]
      obtain ⟨⟨hdevice, hknown⟩, hhold, hcovered⟩ :=
        Win32Injector.fallbackPinchWheel_turned w.session.injector hne
      have hstep : (w.key.step (fallbackZoom.move (.pinch delta))).down =
          (win32Injector.ctrl w.session.injector || !w.session.injector.fallbackCtrl) := by
        rw [hmove, SharedKey.step, hdown, hborrowed]
      rw [hstep, hdown]
      refine ⟨⟨rfl, ?_, hknown.trans hstep.symm, ?_⟩,
        hcovered.trans ⟨fun hctrl _ => hctrl, fun hctrl => hctrl hne⟩⟩
      · rw [hdown, hstep]
        exact hdevice
      · rw [hmove, SharedKey.step, hdown, hborrowed]
        exact hhold
  pinchEnd w hl := by
    obtain ⟨hdown, hborrowed⟩ := hl
    replace hdown : w.key.down = win32Injector.ctrl w.session.injector := hdown
    replace hborrowed : w.key.borrowed = w.session.injector.fallbackCtrl := hborrowed
    have hgesture := @gesture_native _ _ win32Injector w.session .pinchEnd rfl
    show fallbackZoom.Moved w _ (w.session.gesture win32Injector .native .pinchEnd) ∧
      (_ → (w.session.gesture win32Injector .native .pinchEnd).2 = [])
    rw [hgesture]
    obtain ⟨hdevice, hknown⟩ := Win32Injector.endPinch_turned w.session.injector
    have hstep : (w.key.step (fallbackZoom.move .pinchEnd)).down =
        (win32Injector.ctrl w.session.injector && !w.session.injector.fallbackCtrl) := by
      rw [ZoomRenderer.move, SharedKey.step, hdown, hborrowed]
    refine ⟨⟨rfl, ?_, hknown.trans hstep.symm, ?_⟩, fun hnot => ?_⟩
    · rw [hdown, hstep]
      exact hdevice
    · exact Win32Injector.endPinch_fallbackCtrl w.session.injector
    · rw [hborrowed] at hnot
      show w.session.injector.endPinch.2 = []
      rw [Win32Injector.endPinch, if_neg (by simp [hnot])]

/-- The Ctrl of a fresh session is up. -/
lemma inStep_start {σ ω : Type*} [DeviceEvent ω] {r : ZoomRenderer σ ω}
    (hctrl : r.injector.ctrl r.create = false) (hhold : r.hold ⟨r.create, false, false⟩ = false) :
    ZoomRenderer.InStep r r.start := fun _ =>
  ⟨⟨hctrl.symm, hhold.symm⟩, ⟨rfl, fun hlow => absurd hlow Bool.false_ne_true,
    fun _ hborrowed => absurd hborrowed Bool.false_ne_true⟩⟩

/-- **The receiver's page zoom.** With either renderer, along the runs of a session every frame
finds its zoom steps under Ctrl, releases no Ctrl of the peer at the end of a gesture, and leaves
Ctrl outside of gestures as the peer has it, exactly if the peer's Ctrl stays out of the gestures'
holds. -/
theorem pageZooms_clean_iff (frames : List ZoomFrame) :
    (Trace.Each (fun m frame => expandedZoom.Survives (expandedZoom.after m) frame →
        expandedZoom.Clean (expandedZoom.after m) frame) frames ↔
      Trace.Each (fun m => expandedZoom.Undisturbed (expandedZoom.after m)) frames) ∧
    (Trace.Each (fun m frame => fallbackZoom.Survives (fallbackZoom.after m) frame →
        fallbackZoom.Clean (fallbackZoom.after m) frame) frames ↔
      Trace.Each (fun m => fallbackZoom.Undisturbed (fallbackZoom.after m)) frames) :=
  ⟨expandedZoom_faithful.each_clean_iff (inStep_start (by rfl) rfl) frames,
    fallbackZoom_faithful.each_clean_iff (inStep_start (by rfl) rfl) frames⟩

/-- The peer presses Ctrl during a gesture and holds it at its end, which lets go of it. -/
theorem zoom_releases_peer_ctrl :
    ¬((∀ frames, Trace.Each (fun m frame => expandedZoom.Survives (expandedZoom.after m) frame →
          expandedZoom.Clean (expandedZoom.after m) frame) frames) ∧
      ∀ frames, Trace.Each (fun m frame => fallbackZoom.Survives (fallbackZoom.after m) frame →
        fallbackZoom.Clean (fallbackZoom.after m) frame) frames) := by
  rintro ⟨h, -⟩
  have hend := h [.pinch 10, .key ⟨hidLeftCtrl, true, false⟩, .pinchEnd]
    [.pinch 10, .key ⟨hidLeftCtrl, true, false⟩] .pinchEnd (by rfl) (by rfl)
  exact Bool.false_ne_true (hend.owners rfl)

end TheKvm

import TheKvm.Core.Event
import TheKvm.Lib.Trace

/-!
Pinch gestures on their way to a peer that knows none.

A gesture becomes a held Ctrl and wheel steps. The hold shares its key with the real Ctrl,
and each may start and end while the other lasts.
-/

namespace TheKvm

/-- USB HID usage for Left Ctrl, the zoom modifier. -/
def hidLeftCtrl : HidUsage := 0xe0

/-- A gesture start presses Ctrl, unless it is physically held, each spread is one smooth
wheel step, and the gesture end releases the Ctrl it pressed. The flag is that hold. -/
def pinchExpansion (event : InputEvent) (physicalCtrlHeld pinchHeld : Bool) :
    List InputEvent × Bool :=
  match event with
  | .pinchEnd =>
    if pinchHeld then ([.key ⟨hidLeftCtrl, false, false⟩], false) else ([], pinchHeld)
  | .pinch delta =>
    let take := !pinchHeld && !physicalCtrlHeld
    ((if take then [.key ⟨hidLeftCtrl, true, false⟩] else []) ++
      (if delta ≠ 0 then [.smoothWheel 0 delta] else []), pinchHeld || take)
  | _ => ([event], pinchHeld)

/-- A peer that handles gestures gets them untouched. -/
def pinchForSend (event : InputEvent) (peerHandlesPinch physicalCtrlHeld pinchHeld : Bool) :
    List InputEvent × Bool :=
  match event, peerHandlesPinch with
  | .pinchEnd, true => ([.pinchEnd], pinchHeld)
  | .pinch delta, true => ([.pinch delta], pinchHeld)
  | _, _ => pinchExpansion event physicalCtrlHeld pinchHeld

/-! ### A session with a legacy peer -/

/-- Ctrl after a key event, for who folds the events. -/
def ctrlAfter (ctrl : Bool) : InputEvent → Bool
  | .key event => if event.usage = hidLeftCtrl then event.pressed else ctrl
  | _ => ctrl

@[simp] lemma ctrlAfter_ctrl (ctrl pressed repeated : Bool) :
    ctrlAfter ctrl (.key ⟨hidLeftCtrl, pressed, repeated⟩) = pressed := by
  rw [ctrlAfter, if_pos rfl]

@[simp] lemma ctrlAfter_pinch (ctrl : Bool) (delta : Int32) :
    ctrlAfter ctrl (.pinch delta) = ctrl := rfl

@[simp] lemma ctrlAfter_pinchEnd (ctrl : Bool) : ctrlAfter ctrl .pinchEnd = ctrl := rfl

@[simp] lemma ctrlAfter_smoothWheel (ctrl : Bool) (x y : Int32) :
    ctrlAfter ctrl (.smoothWheel x y) = ctrl := rfl

/-- Every smooth wheel step of the events finds Ctrl held. -/
def WheelsUnderCtrl : Bool → List InputEvent → Prop
  | _, [] => True
  | ctrl, .smoothWheel x y :: events =>
    ctrl = true ∧ WheelsUnderCtrl (ctrlAfter ctrl (.smoothWheel x y)) events
  | ctrl, event :: events => WheelsUnderCtrl (ctrlAfter ctrl event) events

/-- The gesture's hold, the real Ctrl, and the Ctrl the peer makes of the events. -/
structure PinchLink where
  pinchHeld : Bool
  physicalCtrl : Bool
  peerCtrl : Bool
  /-- The real Ctrl was let go since the gesture pressed its own. -/
  released : Bool

namespace PinchLink

/-- A session starts with no gesture and the peer in step. -/
def start (ctrl : Bool) : PinchLink := ⟨false, ctrl, ctrl, false⟩

/-- An event is captured, then sent. -/
def step (s : PinchLink) (event : InputEvent) : PinchLink × List InputEvent :=
  let physicalCtrl := ctrlAfter s.physicalCtrl event
  let sent := pinchForSend event false physicalCtrl s.pinchHeld
  (⟨sent.2, physicalCtrl, sent.1.foldl ctrlAfter s.peerCtrl,
    s.pinchHeld && (s.released || !ctrlAfter true event)⟩, sent.1)

/-- What a gesture owes the peer: zoom steps under Ctrl, and at its end the real Ctrl. -/
def Clean (s : PinchLink) : InputEvent → Prop
  | .pinchEnd => (s.step .pinchEnd).1.peerCtrl = (s.step .pinchEnd).1.physicalCtrl
  | .pinch delta => WheelsUnderCtrl s.peerCtrl (s.step (.pinch delta)).2
  | _ => True

/-- The real Ctrl stays out of the gesture's hold: it is up when the hold ends, and no zoom
step follows its release. -/
def Undisturbed (s : PinchLink) : InputEvent → Prop
  | .pinchEnd => s.pinchHeld = true → s.physicalCtrl = false
  | .pinch delta =>
    delta ≠ 0 → s.pinchHeld = true → s.physicalCtrl = false → s.released = false
  | _ => True

/-- The peer holds Ctrl for the real one, or for a gesture whose hold no release undid. -/
def InStep (s : PinchLink) : Prop :=
  s.peerCtrl = (s.physicalCtrl || (s.pinchHeld && !s.released))

variable {s : PinchLink}

lemma step_pinch (s : PinchLink) (delta : Int32) :
    s.step (.pinch delta) =
      (⟨s.pinchHeld || !s.physicalCtrl, s.physicalCtrl,
        s.peerCtrl || !s.pinchHeld && !s.physicalCtrl, s.pinchHeld && s.released⟩,
      (if !s.pinchHeld && !s.physicalCtrl then [.key ⟨hidLeftCtrl, true, false⟩] else []) ++
        (if delta ≠ 0 then [.smoothWheel 0 delta] else [])) := by
  rcases s with ⟨held, physical, peer, released⟩
  by_cases hd : delta = 0 <;> cases held <;> cases physical <;>
    simp [step, pinchForSend, pinchExpansion, hd]

lemma step_pinchEnd (s : PinchLink) :
    s.step .pinchEnd =
      (⟨false, s.physicalCtrl, s.peerCtrl && !s.pinchHeld, s.pinchHeld && s.released⟩,
        if s.pinchHeld then [.key ⟨hidLeftCtrl, false, false⟩] else []) := by
  rcases s with ⟨held, physical, peer, released⟩
  cases held <;> simp [step, pinchForSend, pinchExpansion]

lemma step_key (s : PinchLink) (event : KeyEvent) :
    s.step (.key event) =
      (⟨s.pinchHeld, ctrlAfter s.physicalCtrl (.key event), ctrlAfter s.peerCtrl (.key event),
        s.pinchHeld && (s.released || !ctrlAfter true (.key event))⟩, [.key event]) := rfl

/-- A gesture owes the peer exactly what an undisturbed hold gives. -/
lemma clean_iff (h : s.InStep) (event : InputEvent) : s.Clean event ↔ s.Undisturbed event := by
  rcases s with ⟨held, physical, peer, released⟩
  simp only [InStep] at h
  cases event with
  | pinch delta =>
    simp only [Clean, Undisturbed, step_pinch, h]
    by_cases hd : delta = 0 <;> cases held <;> cases physical <;> cases released <;>
      simp [hd, WheelsUnderCtrl]
  | pinchEnd =>
    simp only [Clean, Undisturbed, step_pinchEnd, h]
    cases held <;> cases physical <;> simp
  | _ => exact Iff.rfl

/-- The peer stays in step while no hold is disturbed. -/
lemma step_inStep (h : s.InStep) {event : InputEvent} (hu : s.Undisturbed event) :
    (s.step event).1.InStep := by
  rcases s with ⟨held, physical, peer, released⟩
  simp only [InStep] at h
  cases event with
  | key event =>
    simp only [InStep, step_key, h, ctrlAfter]
    by_cases husage : event.usage = hidLeftCtrl
    · rw [if_pos husage, if_pos husage, if_pos husage]
      cases event.pressed <;> cases held <;> simp
    · rw [if_neg husage, if_neg husage, if_neg husage]
      cases held <;> simp
  | pinch delta =>
    simp only [InStep, step_pinch, h]
    cases held <;> cases physical <;> simp
  | pinchEnd =>
    simp only [Undisturbed] at hu
    simp only [InStep, step_pinchEnd, h]
    cases held <;> cases physical <;> simp_all
  | _ =>
    simp only [InStep, step, pinchForSend, pinchExpansion, ctrlAfter, List.foldl_cons,
      List.foldl_nil, h]
    cases held <;> simp

/-- **The synthetic Ctrl.** Along the runs of a session every zoom step of a gesture finds the
peer's Ctrl held and every gesture end leaves it as the real Ctrl is, exactly if the real Ctrl
stays out of the gestures' holds. -/
theorem gestures_clean_iff (ctrl : Bool) (events : List InputEvent) :
    Trace.Each (fun m => (Trace.final step (start ctrl) m).Clean) events ↔
      Trace.Each (fun m => (Trace.final step (start ctrl) m).Undisturbed) events := by
  refine Trace.each_congr fun m a hm => ?_
  have hin : (Trace.final step (start ctrl) m).InStep :=
    Trace.invariant (I := fun _ (s : PinchLink) => s.InStep) (by simp [start, InStep])
      (fun _ _ h hu => step_inStep h hu) hm
  exact clean_iff hin a

/-- Ctrl goes down during a gesture and is still down at its end, which lets go of it. -/
theorem pinch_releases_real_ctrl :
    ¬∀ (ctrl : Bool) (events : List InputEvent),
      Trace.Each (fun m => (Trace.final step (start ctrl) m).Clean) events := by
  intro h
  have hend := h false [.pinch 10, .key ⟨hidLeftCtrl, true, false⟩, .pinchEnd]
    [.pinch 10, .key ⟨hidLeftCtrl, true, false⟩] .pinchEnd (by rfl)
  exact Bool.false_ne_true hend

end PinchLink

end TheKvm

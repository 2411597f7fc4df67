import TheKvm.Platform.Evdev
import Mathlib.Data.Finset.Basic
import Mathlib.Data.List.Perm.Basic
import Mathlib.Data.List.ReduceOption

/-!
What the devices hold together.

The controls that all devices hold are the ones that are pressed in the stream, as long as the
events are returned in the order they were accepted in. The events of a device that goes away
are returned before those that wait for the devices that stay.
-/

namespace TheKvm.Evdev

open Held (turn Alternates only)

/-! ### Presses and releases -/

/-- The press or release an event is; a repeat is none. -/
def edge : InputEvent → Option (KeyOrButton × Bool)
  | .key event =>
    if event.repeated ∧ event.pressed then none else some (.key event.usage, event.pressed)
  | .mouseButton button pressed => some (.button button, pressed)
  | _ => none

def edges (l : List InputEvent) : List (KeyOrButton × Bool) := l.filterMap edge

lemma edges_append (l m : List InputEvent) : edges (l ++ m) = edges l ++ edges m :=
  List.filterMap_append

/-- Keys and buttons together. -/
def controls (keys : BTreeSet HidUsage) (buttons : BTreeSet MouseButton) : Finset KeyOrButton :=
  (keys.toList.map KeyOrButton.key ++ buttons.toList.map KeyOrButton.button).toFinset

section

variable {keys : BTreeSet HidUsage} {buttons : BTreeSet MouseButton} {usage : HidUsage}
  {button : MouseButton}

@[simp] lemma key_mem_controls : .key usage ∈ controls keys buttons ↔ usage ∈ keys := by
  simp [controls, BTreeSet.mem_def]

@[simp] lemma button_mem_controls : .button button ∈ controls keys buttons ↔ button ∈ buttons := by
  simp [controls, BTreeSet.mem_def]

lemma controls_insert_key :
    controls (keys.insert usage) buttons = turn (controls keys buttons) (.key usage, true) := by
  ext c
  cases c <;> simp

lemma controls_erase_key :
    controls (keys.erase usage) buttons = turn (controls keys buttons) (.key usage, false) := by
  ext c
  cases c <;> simp

lemma controls_insert_button :
    controls keys (buttons.insert button) =
      turn (controls keys buttons) (.button button, true) := by
  ext c
  cases c <;> simp

lemma controls_erase_button :
    controls keys (buttons.erase button) =
      turn (controls keys buttons) (.button button, false) := by
  ext c
  cases c <;> simp

end

/-- The controls a device reports as held. -/
def Device.held (d : Device) : Finset KeyOrButton := controls d.pressedKeys d.pressedButtons

/-! ### What a device decodes -/

/-- A device reports nothing, turns a control, or clicks a button while none of its own is
down. -/
inductive Decodes (d d' : Device) (produced : List InputEvent) : Prop
  | still (hheld : d'.held = d.held) (hproduced : ∀ e ∈ produced, e.transition = none)
  | turned (c : KeyOrButton) (on : Bool) (event : InputEvent)
      (hheld : d'.held = turn d.held (c, on))
      (hproduced : produced = [event]) (htransition : event.transition = some (c, on))
      (hedge : edge event = some (c, on))
  | clicked (button : MouseButton) (hheld : d'.held = d.held)
      (hfree : ∀ b, .button b ∉ d.held)
      (hproduced : produced = [.mouseButton button true, .mouseButton button false])

/-- And its queue grows by repeats. -/
structure DecodesTo (d : Device) (r : Device × List InputEvent) : Prop where
  decodes : Decodes d r.1 r.2
  queue : ∃ repeats, r.1.queue = d.queue ++ repeats ∧ edges repeats = []

variable {d : Device}

lemma decodesTo_same {d' : Device} (hkeys : d'.pressedKeys = d.pressedKeys)
    (hbuttons : d'.pressedButtons = d.pressedButtons) (hqueue : d'.queue = d.queue)
    {produced : List InputEvent} (hproduced : ∀ e ∈ produced, e.transition = none) :
    DecodesTo d (d', produced) := by
  refine ⟨.still ?_ hproduced, [], by simp [hqueue], rfl⟩
  rw [Device.held, hkeys, hbuttons, Device.held]

lemma decodesTo_silent {d' : Device} (hkeys : d'.pressedKeys = d.pressedKeys)
    (hbuttons : d'.pressedButtons = d.pressedButtons) (hqueue : d'.queue = d.queue) :
    DecodesTo d (d', []) :=
  decodesTo_same hkeys hbuttons hqueue fun _ he => absurd he List.not_mem_nil

lemma decodesTo_nothing : DecodesTo d (d, []) := decodesTo_silent rfl rfl rfl

lemma decodesTo_button {d' : Device} (button : MouseButton) (pressed : Bool)
    (hkeys : d'.pressedKeys = d.pressedKeys) (hbuttons : d'.pressedButtons = d.pressedButtons)
    (hqueue : d'.queue = d.queue) :
    DecodesTo d (d'.pressButton button pressed, [.mouseButton button pressed]) := by
  refine ⟨.turned (.button button) pressed _ ?_ rfl rfl rfl, [],
    by simp [Device.pressButton, hqueue], rfl⟩
  unfold Device.held Device.pressButton
  cases pressed with
  | false => simp [controls_erase_button, hkeys, hbuttons]
  | true => simp [controls_insert_button, hkeys, hbuttons]

lemma decodesTo_click {d' : Device} (button : MouseButton) (hkeys : d'.pressedKeys = d.pressedKeys)
    (hbuttons : d'.pressedButtons = d.pressedButtons) (hqueue : d'.queue = d.queue)
    (hfree : d.pressedButtons.isEmpty = true) :
    DecodesTo d (d', [.mouseButton button true, .mouseButton button false]) := by
  refine ⟨.clicked button ?_ (fun b hb => ?_) rfl, [], by simp [hqueue], rfl⟩
  · rw [Device.held, hkeys, hbuttons, Device.held]
  · exact BTreeSet.isEmpty_iff.mp hfree b (button_mem_controls.mp hb)

lemma decodesTo_touch (now : Instant) (value : Int32) : DecodesTo d (d.touch now value) := by
  unfold Device.touch
  simp only
  split_ifs with hdown hup hclick htap
  · exact decodesTo_silent rfl rfl rfl
  · refine decodesTo_click _ rfl rfl rfl ?_
    split at hclick
    · exact (Bool.and_eq_true_iff.mp hclick).2
    · cases hclick
  · refine decodesTo_click _ rfl rfl rfl ?_
    split at hclick
    · exact (Bool.and_eq_true_iff.mp hclick).2
    · cases hclick
  · exact decodesTo_silent rfl rfl rfl
  · exact decodesTo_silent rfl rfl rfl

lemma decodesTo_padButton (button : MouseButton) (pressed : Bool) :
    DecodesTo d (d.padButton button pressed) := by
  unfold Device.padButton
  simp only
  split_ifs
  · exact decodesTo_button _ _ rfl rfl rfl
  · exact decodesTo_button _ _ rfl rfl rfl
  · exact decodesTo_button _ _ rfl rfl rfl

lemma decodesTo_touchpadKey (now : Instant) (code : UInt16) (value : Int32) :
    DecodesTo d (d.touchpadKey now code value) := by
  unfold Device.touchpadKey
  split_ifs
  · exact decodesTo_touch now value
  · exact decodesTo_silent rfl rfl rfl
  · split
    · exact decodesTo_padButton _ _
    · exact decodesTo_nothing

lemma decodesTo_pushKey (code : UInt16) (value : Int32) : DecodesTo d (d.pushKey code value) := by
  unfold Device.pushKey
  split
  · split_ifs
    · exact ⟨.still rfl (by simp), [_], rfl, rfl⟩
    · exact ⟨.turned (.key _) true _ controls_insert_key rfl rfl rfl, [], by simp, rfl⟩
  · exact ⟨.turned (.key _) false _ controls_erase_key rfl rfl rfl, [], by simp, rfl⟩
  · exact decodesTo_nothing

lemma decodesTo_mouseKey (code : UInt16) (value : Int32) : DecodesTo d (d.mouseKey code value) := by
  unfold Device.mouseKey
  split
  · split
    · exact decodesTo_button _ _ rfl rfl rfl
    · exact decodesTo_nothing
  · split_ifs
    · exact decodesTo_pushKey code value
    · exact decodesTo_nothing

/-- Motion and scrolling leave what is held and what waits alone. -/
def Device.Alike (d d' : Device) : Prop :=
  d'.pressedKeys = d.pressedKeys ∧ d'.pressedButtons = d.pressedButtons ∧ d'.queue = d.queue

lemma alike_glide (x y : Int32) : d.Alike (d.glide x y) := by
  unfold Device.glide
  split
  · simp only
    split_ifs <;> exact ⟨rfl, rfl, rfl⟩
  · exact ⟨rfl, rfl, rfl⟩

lemma alike_pan (mx my : Int32) : d.Alike (d.pan mx my) := by
  unfold Device.pan
  split
  · simp only
    split_ifs <;> exact ⟨rfl, rfl, rfl⟩
  · exact ⟨rfl, rfl, rfl⟩

lemma alike_fingers : d.Alike d.fingers := by
  unfold Device.fingers
  simp only
  split
  · exact alike_glide _ _
  · split
    · exact alike_pan _ _
    · exact alike_pan _ _
  · exact ⟨rfl, rfl, rfl⟩

/-- What `SYN_REPORT` yields is motion. -/
lemma transition_of_flush {move scroll : Prop} [Decidable move] [Decidable scroll]
    {wheel : List InputEvent} {dx dy x y : Int32} (hwheel : ∀ e ∈ wheel, e.transition = none) :
    ∀ e ∈ (if move then [InputEvent.mouseMove dx dy] else []) ++
      (if scroll then [InputEvent.smoothWheel x y] else wheel), e.transition = none := by
  intro e he
  rcases List.mem_append.mp he with he | he
  · split_ifs at he
    · rw [List.mem_singleton.mp he]
      rfl
    · exact absurd he List.not_mem_nil
  · split_ifs at he
    · rw [List.mem_singleton.mp he]
      rfl
    · exact hwheel e he

lemma decodesTo_report : DecodesTo d d.report := by
  have halike : d.Alike (if d.kind.isTouchpad then d.fingers else d) := by
    split_ifs
    · exact alike_fingers
    · exact ⟨rfl, rfl, rfl⟩
  unfold Device.report
  generalize (if d.kind.isTouchpad then d.fingers else d) = d' at halike
  dsimp only
  refine decodesTo_same ?_ ?_ ?_ fun e he => ?_
  · exact halike.1
  · exact halike.2.1
  · exact halike.2.2
  · refine transition_of_flush (fun e he => ?_) e he
    split_ifs at he
    · rw [List.mem_singleton.mp he]
      rfl
    · exact absurd he List.not_mem_nil

lemma alike_rel (code : UInt16) (value : Int32) : d.Alike (d.rel code value) := by
  unfold Device.rel
  split_ifs <;> exact ⟨rfl, rfl, rfl⟩

theorem decodesTo_process (now : Instant) (event : RawInputEvent) :
    DecodesTo d (d.process now event) := by
  unfold Device.process
  split_ifs
  · exact decodesTo_nothing
  · exact decodesTo_touchpadKey now event.code event.value
  · exact decodesTo_silent rfl rfl rfl
  · exact decodesTo_mouseKey event.code event.value
  · exact decodesTo_pushKey event.code event.value
  · obtain ⟨hkeys, hbuttons, hqueue⟩ := alike_rel (d := d) event.code event.value
    exact decodesTo_silent hkeys hbuttons hqueue
  · exact decodesTo_report
  · exact decodesTo_nothing

/-! ### The filter -/

namespace EvdevCapture

/-- The controls the capture has for held. -/
def shared (s : EvdevCapture) : Finset KeyOrButton := controls s.pressedKeys s.pressedButtons

/-- It has for held what a device holds. -/
def Covered (s : EvdevCapture) : Prop := ∀ c, c ∈ s.shared ↔ ∃ d ∈ s.devices, c ∈ d.held

/-- Another device than the source holds the control. -/
def Elsewhere (s : EvdevCapture) (source : ℕ) (c : KeyOrButton) : Prop :=
  ∃ (i : ℕ) (d : Device), i ≠ source ∧ s.devices[i]? = some d ∧ c ∈ d.held

variable {s : EvdevCapture} {source : ℕ} {event : InputEvent} {c : KeyOrButton}

lemma others_iff {test : Device → Bool} (htest : ∀ d, test d = true ↔ c ∈ d.held) :
    s.others source test = true ↔ s.Elsewhere source c := by
  unfold others Elsewhere
  simp only [List.any_eq_true, Prod.exists, List.mem_zipIdx_iff_getElem?, Bool.and_eq_true,
    decide_eq_true_iff, htest]
  constructor
  · rintro ⟨d, i, hd, hne, hheld⟩
    exact ⟨i, d, hne, hd, hheld⟩
  · rintro ⟨i, d, hne, hd, hheld⟩
    exact ⟨d, i, hd, hne, hheld⟩

lemma accept_other (h : event.transition = none) :
    s.acceptEvent source event = (s, some event) := by
  cases event with
  | key event => cases h
  | mouseButton button pressed => cases h
  | _ => rfl

/-- What the filter does with a press or a release. -/
structure Accepts (s : EvdevCapture) (event : InputEvent) (c : KeyOrButton) (on : Bool)
    (r : EvdevCapture × Option InputEvent) : Prop where
  devices : r.1.devices = s.devices
  pending : r.1.pendingEvents = s.pendingEvents
  shared : r.1.shared = turn s.shared (c, on)
  passed : r.2 = if c ∈ s.shared ↔ on = true then none else some event

lemma accept_press (s : EvdevCapture) (source : ℕ) (h : event.transition = some (c, true)) :
    Accepts s event c true (s.acceptEvent source event) := by
  rcases event with ⟨usage, _ | _, rep⟩ | _ | ⟨button, _ | _⟩ | _ | _ | _ | _
  all_goals cases h
  · refine ⟨rfl, rfl, controls_insert_key, ?_⟩
    simp [acceptEvent, EvdevCapture.shared]
  · refine ⟨rfl, rfl, controls_insert_button, ?_⟩
    simp [acceptEvent, EvdevCapture.shared]

lemma accept_release (h : event.transition = some (c, false)) (hfree : ¬s.Elsewhere source c) :
    Accepts s event c false (s.acceptEvent source event) := by
  rcases event with ⟨usage, _ | _, rep⟩ | _ | ⟨button, _ | _⟩ | _ | _ | _ | _
  all_goals cases h
  · have hothers : s.others source (fun d => usage ∈ d.pressedKeys) = false := by
      rw [← Bool.not_eq_true, others_iff (c := .key usage) (by simp [Device.held])]
      exact hfree
    refine ⟨?_, ?_, ?_, ?_⟩ <;> simp only [acceptEvent, hothers, Bool.false_eq_true, if_false]
    · exact controls_erase_key
    · simp [EvdevCapture.shared]
  · have hothers : s.others source (fun d => button ∈ d.pressedButtons) = false := by
      rw [← Bool.not_eq_true, others_iff (c := .button button) (by simp [Device.held])]
      exact hfree
    refine ⟨?_, ?_, ?_, ?_⟩ <;> simp only [acceptEvent, hothers, Bool.false_eq_true, if_false]
    · exact controls_erase_button
    · simp [EvdevCapture.shared]

lemma accept_release_elsewhere (h : event.transition = some (c, false))
    (helse : s.Elsewhere source c) : s.acceptEvent source event = (s, none) := by
  rcases event with ⟨usage, _ | _, rep⟩ | _ | ⟨button, _ | _⟩ | _ | _ | _ | _
  all_goals cases h
  · have hothers : s.others source (fun d => usage ∈ d.pressedKeys) = true :=
      (others_iff (by simp [Device.held])).mpr helse
    simp only [acceptEvent, hothers, Bool.false_eq_true, if_false, if_true]
  · have hothers : s.others source (fun d => button ∈ d.pressedButtons) = true :=
      (others_iff (by simp [Device.held])).mpr helse
    simp only [acceptEvent, hothers, Bool.false_eq_true, if_false, if_true]

/-! ### A device among others -/

variable {index : ℕ} {d d' : Device}

lemma held_set (hd : s.devices[index]? = some d) :
    (∃ e ∈ s.devices.set index d', c ∈ e.held) ↔ c ∈ d'.held ∨ s.Elsewhere index c := by
  have hlt : index < s.devices.length := (List.getElem?_eq_some_iff.mp hd).1
  simp only [List.mem_iff_getElem?]
  constructor
  · rintro ⟨e, ⟨i, hi⟩, hheld⟩
    rw [List.getElem?_set] at hi
    split_ifs at hi with heq
    · exact Or.inl (Option.some.inj hi ▸ hheld)
    · exact Or.inr ⟨i, e, Ne.symm heq, hi, hheld⟩
  · rintro (hheld | ⟨i, e, hne, hi, hheld⟩)
    · exact ⟨d', ⟨index, List.getElem?_set_self hlt⟩, hheld⟩
    · exact ⟨e, ⟨i, by rw [List.getElem?_set_ne (Ne.symm hne), hi]⟩, hheld⟩

lemma Covered.split (h : s.Covered) (hd : s.devices[index]? = some d) :
    c ∈ s.shared ↔ c ∈ d.held ∨ s.Elsewhere index c := by
  have hself : s.devices.set index d = s.devices := by
    obtain ⟨hlt, rfl⟩ := List.getElem?_eq_some_iff.mp hd
    exact List.set_getElem_self hlt
  rw [h c, ← held_set hd, hself]

lemma elsewhere_set : EvdevCapture.Elsewhere { s with devices := s.devices.set index d' } index c ↔
    s.Elsewhere index c := by
  unfold Elsewhere
  refine exists₂_congr fun i e => and_congr_right fun hne => ?_
  rw [List.getElem?_set_ne (Ne.symm hne)]

/-- What a device produces, behind the filter. -/
structure Filters (s : EvdevCapture) (index : ℕ) (d' : Device)
    (r : EvdevCapture × List InputEvent) : Prop where
  devices : r.1.devices = s.devices.set index d'
  pending : r.1.pendingEvents = s.pendingEvents
  shared : ∀ c, c ∈ r.1.shared ↔ c ∈ d'.held ∨ s.Elsewhere index c
  alternates : Alternates s.shared (edges r.2)
  after : Held.after s.shared (edges r.2) = r.1.shared

lemma edges_none {l : List InputEvent} (h : ∀ e ∈ l, e.transition = none) : edges l = [] := by
  rw [edges, List.filterMap_eq_nil_iff]
  intro e he
  have hnone := h e he
  cases e with
  | key event => cases hnone
  | mouseButton button pressed => cases hnone
  | _ => rfl

lemma acceptAll_cons (l : List InputEvent) : s.acceptAll index (event :: l) =
    (((s.acceptEvent index event).1.acceptAll index l).1,
      (s.acceptEvent index event).2.toList ++
        ((s.acceptEvent index event).1.acceptAll index l).2) := rfl

lemma acceptAll_other {l : List InputEvent} (h : ∀ e ∈ l, e.transition = none) :
    s.acceptAll index l = (s, l) := by
  induction l with
  | nil => rfl
  | cons e l ih =>
    obtain ⟨he, hl⟩ := List.forall_mem_cons.mp h
    rw [acceptAll_cons, accept_other he, ih hl]
    rfl

lemma acceptAll_single : s.acceptAll index [event] =
    ((s.acceptEvent index event).1, (s.acceptEvent index event).2.toList) := by
  rw [acceptAll_cons, acceptAll, List.append_nil]

lemma filters_still (hcovered : s.Covered) (hd : s.devices[index]? = some d)
    (hheld : d'.held = d.held) {produced : List InputEvent}
    (hproduced : ∀ e ∈ produced, e.transition = none) :
    Filters s index d'
      (EvdevCapture.acceptAll { s with devices := s.devices.set index d' } index produced) := by
  rw [acceptAll_other hproduced]
  refine ⟨rfl, rfl, fun c => ?_, ?_, ?_⟩
  · rw [hheld]
    exact hcovered.split hd
  · rw [edges_none hproduced]
    trivial
  · rw [edges_none hproduced]
    rfl

/-- The edge of a passed event. -/
lemma edges_passed (shared : Finset KeyOrButton) {on : Bool} (h : edge event = some (c, on)) :
    Alternates shared (edges (if c ∈ shared ↔ on = true then none else some event).toList) ∧
      Held.after shared (edges (if c ∈ shared ↔ on = true then none else some event).toList) =
        turn shared (c, on) := by
  by_cases hc : c ∈ shared <;> cases on
  all_goals simp [hc, edges, h, Held.Alternates]

lemma filters_press (hcovered : s.Covered) (hd : s.devices[index]? = some d)
    (hheld : d'.held = turn d.held (c, true)) (htransition : event.transition = some (c, true))
    (hedge : edge event = some (c, true)) :
    Filters s index d'
      (EvdevCapture.acceptAll { s with devices := s.devices.set index d' } index [event]) := by
  rw [acceptAll_single]
  obtain ⟨hdevices, hpending, hshared, hpassed⟩ :=
    accept_press { s with devices := s.devices.set index d' } index htransition
  have hedges := edges_passed s.shared hedge
  refine ⟨hdevices, hpending, fun x => ?_, ?_, ?_⟩
  · rw [hshared, hheld]
    have hx : x ∈ s.shared ↔ _ := hcovered.split hd
    show x ∈ turn s.shared (c, true) ↔ _
    rw [Held.mem_turn, Held.mem_turn, hx]
    tauto
  · rw [hpassed]
    exact hedges.1
  · rw [hpassed, hshared]
    exact hedges.2

lemma filters_release (hcovered : s.Covered) (hd : s.devices[index]? = some d)
    (hheld : d'.held = turn d.held (c, false)) (htransition : event.transition = some (c, false))
    (hedge : edge event = some (c, false)) :
    Filters s index d'
      (EvdevCapture.acceptAll { s with devices := s.devices.set index d' } index [event]) := by
  rw [acceptAll_single]
  have hsplit : ∀ x, x ∈ s.shared ↔ x ∈ d.held ∨ s.Elsewhere index x := fun x => hcovered.split hd
  by_cases helse : s.Elsewhere index c
  · rw [accept_release_elsewhere htransition (elsewhere_set.mpr helse)]
    refine ⟨rfl, rfl, fun x => ?_, trivial, rfl⟩
    show x ∈ s.shared ↔ _
    rw [hheld, Held.mem_turn, hsplit]
    rcases eq_or_ne x c with rfl | hne
    · simp [helse]
    · simp [hne]
  · obtain ⟨hdevices, hpending, hshared, hpassed⟩ :=
      accept_release htransition fun h => helse (elsewhere_set.mp h)
    have hedges := edges_passed s.shared hedge
    refine ⟨hdevices, hpending, fun x => ?_, ?_, ?_⟩
    · rw [hshared, hheld]
      show x ∈ turn s.shared (c, false) ↔ _
      rw [Held.mem_turn, Held.mem_turn, hsplit]
      rcases eq_or_ne x c with rfl | hne
      · simp [helse]
      · simp [hne]
    · rw [hpassed]
      exact hedges.1
    · rw [hpassed, hshared]
      exact hedges.2

/-- A click that finds the button held by another device passes neither of its halves. -/
lemma filters_click (hcovered : s.Covered) (hd : s.devices[index]? = some d)
    (hheld : d'.held = d.held) {button : MouseButton} (hfree : .button button ∉ d.held) :
    Filters s index d' (EvdevCapture.acceptAll { s with devices := s.devices.set index d' } index
      [.mouseButton button true, .mouseButton button false]) := by
  have hsplit : ∀ x, x ∈ s.shared ↔ x ∈ d.held ∨ s.Elsewhere index x := fun x => hcovered.split hd
  have hpress := accept_press { s with devices := s.devices.set index d' } index
    (show (InputEvent.mouseButton button true).transition = some (.button button, true) from rfl)
  rw [acceptAll_cons, acceptAll_single]
  generalize EvdevCapture.acceptEvent { s with devices := s.devices.set index d' } index
    (.mouseButton button true) = r at hpress
  obtain ⟨s₁, passed⟩ := r
  obtain ⟨hdevices, hpending, hshared, hpassed⟩ := hpress
  have helse₁ : s₁.Elsewhere index (.button button) ↔ s.Elsewhere index (.button button) := by
    have heq : s₁.devices = s.devices.set index d' := hdevices
    have hset : EvdevCapture.Elsewhere { s with devices := s.devices.set index d' } index
        (.button button) ↔ s.Elsewhere index (.button button) := elsewhere_set
    unfold Elsewhere at hset ⊢
    rw [heq]
    exact hset
  have hbutton : .button button ∈ s.shared ↔ s.Elsewhere index (.button button) := by
    rw [hsplit, or_iff_right hfree]
  by_cases helse : s.Elsewhere index (.button button)
  · have hheld' : .button button ∈ s.shared := hbutton.mpr helse
    have hsame : s₁.shared = s.shared := hshared.trans (Finset.insert_eq_of_mem hheld')
    have hnone : passed = none := hpassed.trans (if_pos (iff_of_true hheld' rfl))
    rw [accept_release_elsewhere rfl (helse₁.mpr helse)]
    refine ⟨hdevices, hpending, fun x => ?_, ?_, ?_⟩
    · rw [hsame, hheld, hsplit]
    · rw [hnone]
      trivial
    · rw [hnone, hsame]
      rfl
  · have hfree' : .button button ∉ s.shared := fun h => helse (hbutton.mp h)
    have hsome : passed = some (.mouseButton button true) :=
      hpassed.trans (if_neg fun h => hfree' (h.mpr rfl))
    have hrelease : Accepts s₁ _ (.button button) false
        (s₁.acceptEvent index (.mouseButton button false)) :=
      accept_release rfl fun h => helse (helse₁.mp h)
    obtain ⟨hdevices₂, hpending₂, hshared₂, hpassed₂⟩ := hrelease
    have hheld₁ : .button button ∈ s₁.shared := by
      rw [hshared]
      exact Finset.mem_insert_self _ _
    have hsome₂ := hpassed₂.trans (if_neg fun h => Bool.false_ne_true (h.mp hheld₁))
    have hback : turn s₁.shared (.button button, false) = s.shared := by
      rw [hshared]
      exact Finset.erase_insert hfree'
    refine ⟨hdevices₂.trans hdevices, hpending₂.trans hpending, fun x => ?_, ?_, ?_⟩
    · rw [hshared₂, hback, hheld, hsplit]
    · rw [hsome, hsome₂]
      refine ⟨iff_of_true rfl hfree', ⟨iff_of_false Bool.false_ne_true ?_, trivial⟩⟩
      rw [not_not]
      exact Finset.mem_insert_self _ _
    · rw [hsome, hsome₂, hshared₂, hback]
      exact Finset.erase_insert hfree'

lemma filters_of_decodes (hcovered : s.Covered) (hd : s.devices[index]? = some d)
    {produced : List InputEvent} (h : Decodes d d' produced) :
    Filters s index d'
      (EvdevCapture.acceptAll { s with devices := s.devices.set index d' } index produced) := by
  cases h with
  | still hheld hproduced => exact filters_still hcovered hd hheld hproduced
  | turned c on event hheld hproduced htransition hedge =>
    subst hproduced
    cases on with
    | false => exact filters_release hcovered hd hheld htransition hedge
    | true => exact filters_press hcovered hd hheld htransition hedge
  | clicked button hheld hfree hproduced =>
    subst hproduced
    exact filters_click hcovered hd hheld (hfree button)

/-! ### Reading -/

def queues (s : EvdevCapture) : List (List InputEvent) := s.devices.map Device.queue

/-- What `next_event` will return, in its order. -/
def waiting (s : EvdevCapture) : List InputEvent := s.pendingEvents ++ s.queues.flatten

/-- No event waits for a device from this one on. -/
def EmptyFrom (s : EvdevCapture) (i : ℕ) : Prop :=
  ∀ (j : ℕ) (q : List InputEvent), i ≤ j → s.queues[j]? = some q → q = []

lemma flatten_set {α : Type} {qs : List (List α)} {i : ℕ} {q new : List α} (hq : qs[i]? = some q)
    (hlater : ∀ (j : ℕ) (q' : List α), i < j → qs[j]? = some q' → q' = []) :
    (qs.set i (q ++ new)).flatten = qs.flatten ++ new := by
  induction qs generalizing i with
  | nil => cases hq
  | cons q' qs ih =>
    cases i with
    | zero =>
      obtain rfl := Option.some.inj hq
      have hempty : qs.flatten = [] := by
        rw [List.flatten_eq_nil_iff]
        intro q'' hq''
        obtain ⟨j, hj⟩ := List.mem_iff_getElem?.mp hq''
        exact hlater (j + 1) q'' (Nat.succ_pos j) hj
      rw [List.set_cons_zero, List.flatten_cons, List.flatten_cons, hempty, List.append_nil,
        List.append_nil]
    | succ i =>
      rw [List.set_cons_succ, List.flatten_cons, List.flatten_cons,
        ih hq fun j q'' hij hj => hlater (j + 1) q'' (Nat.succ_lt_succ hij) hj, List.append_assoc]

/-- The capture behind some reads, each of a device none behind which has events waiting. -/
structure Reads (s s' : EvdevCapture) : Prop where
  covered : s'.Covered
  length : s'.devices.length = s.devices.length
  grows : ∃ new, s'.waiting = s.waiting ++ new ∧ Alternates s.shared (edges new) ∧
    Held.after s.shared (edges new) = s'.shared

lemma Reads.refl (hcovered : s.Covered) : Reads s s :=
  ⟨hcovered, rfl, [], (List.append_nil _).symm, trivial, rfl⟩

lemma Reads.trans {s₁ s₂ : EvdevCapture} (h₁ : Reads s s₁) (h₂ : Reads s₁ s₂) : Reads s s₂ := by
  obtain ⟨new₁, hwaiting₁, halternates₁, hafter₁⟩ := h₁.grows
  obtain ⟨new₂, hwaiting₂, halternates₂, hafter₂⟩ := h₂.grows
  refine ⟨h₂.covered, h₂.length.trans h₁.length, new₁ ++ new₂, ?_, ?_, ?_⟩
  · rw [hwaiting₂, hwaiting₁, List.append_assoc]
  · rw [edges_append, Held.alternates_append, hafter₁]
    exact ⟨halternates₁, halternates₂⟩
  · rw [edges_append, Held.after_append, hafter₁, hafter₂]

lemma set_modify {α : Type} {l : List α} {i : ℕ} {a : α} (f : α → α) (h : i < l.length) :
    (l.set i a).modify i f = l.set i (f a) := by
  ext j b
  rw [List.getElem?_modify, List.getElem?_set, List.getElem?_set]
  split_ifs with heq <;> simp

/-- One raw event of a device. -/
lemma reads_read (hcovered : s.Covered) (hempty : s.EmptyFrom (index + 1))
    (e : Instant × RawInputEvent) :
    Reads s (s.read index e) ∧ (s.read index e).EmptyFrom (index + 1) := by
  unfold read
  rcases hd : s.devices[index]? with _ | d
  · exact ⟨Reads.refl hcovered, hempty⟩
  dsimp only
  split_ifs
  · exact ⟨Reads.refl hcovered, hempty⟩
  have hlt : index < s.devices.length := (List.getElem?_eq_some_iff.mp hd).1
  obtain ⟨hdecodes, repeats, hqueue, hrepeats⟩ := decodesTo_process (d := d) e.1 e.2
  have hfilters := filters_of_decodes hcovered hd hdecodes
  generalize d.process e.1 e.2 = r at *
  obtain ⟨d', produced⟩ := r
  generalize EvdevCapture.acceptAll { s with devices := s.devices.set index d' } index produced = r
    at *
  obtain ⟨s₁, accepted⟩ := r
  obtain ⟨hdevices, hpending, hshared, halternates, hafter⟩ := hfilters
  dsimp only at *
  have hdevices' : s₁.devices.modify index (fun d => { d with queue := d.queue ++ accepted }) =
      s.devices.set index { d' with queue := d'.queue ++ accepted } := by
    rw [hdevices, set_modify _ hlt]
  rw [hdevices']
  have hq : s.queues[index]? = some d.queue := by
    rw [queues, List.getElem?_map, hd, Option.map_some]
  have hqueues : (s.devices.set index { d' with queue := d'.queue ++ accepted }).map Device.queue =
      s.queues.set index (d.queue ++ (repeats ++ accepted)) := by
    rw [List.map_set, hqueue, List.append_assoc]
    rfl
  have hlater : ∀ (j : ℕ) (q : List InputEvent), index < j → s.queues[j]? = some q → q = [] :=
    fun j q hj => hempty j q hj
  have hedges : edges (repeats ++ accepted) = edges accepted := by
    rw [edges_append, hrepeats, List.nil_append]
  refine ⟨⟨fun c => ?_, List.length_set, repeats ++ accepted, ?_, ?_, ?_⟩, fun j q hj hjq => ?_⟩
  · show c ∈ s₁.shared ↔ ∃ e ∈ s.devices.set index _, c ∈ e.held
    rw [held_set hd]
    exact hshared c
  · show s₁.pendingEvents ++ (List.map Device.queue _).flatten = _
    rw [hqueues, flatten_set hq hlater, hpending, ← List.append_assoc]
    rfl
  · rw [hedges]
    exact halternates
  · rw [hedges]
    exact hafter
  · have hjq' : (s.queues.set index (d.queue ++ (repeats ++ accepted)))[j]? = some q :=
      hqueues ▸ hjq
    rw [List.getElem?_set_ne (Nat.ne_of_lt hj)] at hjq'
    exact hempty j q hj hjq'

/-- The devices are read in their order. -/
lemma reads_readAll (hcovered : s.Covered) (hempty : s.EmptyFrom 0)
    (reads : ℕ → List (Instant × RawInputEvent)) : Reads s (s.readAll reads) := by
  have hone : ∀ (l : List (Instant × RawInputEvent)) (i : ℕ) (s₁ : EvdevCapture), Reads s s₁ →
      s₁.EmptyFrom (i + 1) →
      Reads s (l.foldl (read · i) s₁) ∧ (l.foldl (read · i) s₁).EmptyFrom (i + 1) := by
    intro l
    induction l with
    | nil => exact fun i s₁ hreads hempty => ⟨hreads, hempty⟩
    | cons e l ih =>
      intro i s₁ hreads hempty
      obtain ⟨hread, hempty'⟩ := reads_read hreads.covered hempty e
      exact ih i _ (hreads.trans hread) hempty'
  have hall : ∀ n, Reads s ((List.range n).foldl (fun s i => (reads i).foldl (read · i) s) s) ∧
      ((List.range n).foldl (fun s i => (reads i).foldl (read · i) s) s).EmptyFrom n := by
    intro n
    induction n with
    | zero => exact ⟨Reads.refl hcovered, hempty⟩
    | succ n ih =>
      rw [List.range_succ, List.foldl_append]
      exact hone (reads n) n _ ih.1 fun j q hj => ih.2 j q (Nat.le_of_succ_le hj)
  exact (hall s.devices.length).1

/-! ### Removal -/

/-- Some releases are appended to the pending events. -/
structure Releases (s s' : EvdevCapture) (new : List InputEvent) : Prop where
  devices : s'.devices = s.devices
  pending : s'.pendingEvents = s.pendingEvents ++ new
  alternates : Alternates s.shared (edges new)
  after : Held.after s.shared (edges new) = s'.shared

lemma Releases.refl : Releases s s [] := ⟨rfl, (List.append_nil _).symm, trivial, rfl⟩

lemma Releases.trans {s₁ s₂ : EvdevCapture} {new₁ new₂ : List InputEvent}
    (h₁ : Releases s s₁ new₁) (h₂ : Releases s₁ s₂ new₂) : Releases s s₂ (new₁ ++ new₂) := by
  refine ⟨h₂.devices.trans h₁.devices, ?_, ?_, ?_⟩
  · rw [h₂.pending, h₁.pending, List.append_assoc]
  · rw [edges_append, Held.alternates_append, h₁.after]
    exact ⟨h₁.alternates, h₂.alternates⟩
  · rw [edges_append, Held.after_append, h₁.after, h₂.after]

def keyReleases (keys : BTreeSet HidUsage) (usages : List HidUsage) : List InputEvent :=
  (usages.filter (· ∈ keys)).map fun usage => .key ⟨usage, false, false⟩

def buttonReleases (held : BTreeSet MouseButton) (buttons : List MouseButton) : List InputEvent :=
  (buttons.filter (· ∈ held)).map fun button => .mouseButton button false

lemma releases_keys {usages : List HidUsage} (hnodup : usages.Nodup) (s : EvdevCapture) :
    Releases s (usages.foldl releaseKey s) (keyReleases s.pressedKeys usages) ∧
      (usages.foldl releaseKey s).pressedButtons = s.pressedButtons := by
  induction usages generalizing s with
  | nil => exact ⟨Releases.refl, rfl⟩
  | cons usage usages ih =>
    obtain ⟨hfresh, hnodup⟩ := List.nodup_cons.mp hnodup
    obtain ⟨hrest, hbuttons⟩ := ih hnodup (s.releaseKey usage)
    rw [List.foldl_cons]
    by_cases hmem : usage ∈ s.pressedKeys
    · have hone : Releases s (s.releaseKey usage) [.key ⟨usage, false, false⟩] := by
        rw [releaseKey, if_pos hmem]
        refine ⟨rfl, rfl, ?_, controls_erase_key.symm⟩
        refine ⟨iff_of_false Bool.false_ne_true fun h => h ?_, trivial⟩
        exact key_mem_controls.mpr hmem
      have hkeys : keyReleases s.pressedKeys (usage :: usages) =
          [.key ⟨usage, false, false⟩] ++ keyReleases (s.releaseKey usage).pressedKeys usages := by
        have hsame : ∀ u ∈ usages,
            decide (u ∈ s.pressedKeys) = decide (u ∈ (s.releaseKey usage).pressedKeys) := by
          intro u hu
          have hne : u ≠ usage := fun h => hfresh (h ▸ hu)
          simp [releaseKey, hmem, hne]
        unfold keyReleases
        rw [List.filter_cons_of_pos (by simpa using hmem), List.filter_congr hsame]
        rfl
      rw [hkeys]
      refine ⟨hone.trans hrest, hbuttons.trans ?_⟩
      rw [releaseKey, if_pos hmem]
    · have hsame : s.releaseKey usage = s := if_neg hmem
      rw [hsame] at hrest hbuttons ⊢
      have hkeys : keyReleases s.pressedKeys (usage :: usages) =
          keyReleases s.pressedKeys usages := by
        unfold keyReleases
        rw [List.filter_cons_of_neg (by simpa using hmem)]
      rw [hkeys]
      exact ⟨hrest, hbuttons⟩

lemma releases_buttons {buttons : List MouseButton} (hnodup : buttons.Nodup) (s : EvdevCapture) :
    Releases s (buttons.foldl releaseButton s) (buttonReleases s.pressedButtons buttons) := by
  induction buttons generalizing s with
  | nil => exact Releases.refl
  | cons button buttons ih =>
    obtain ⟨hfresh, hnodup⟩ := List.nodup_cons.mp hnodup
    have hrest := ih hnodup (s.releaseButton button)
    rw [List.foldl_cons]
    by_cases hmem : button ∈ s.pressedButtons
    · have hone : Releases s (s.releaseButton button) [.mouseButton button false] := by
        rw [releaseButton, if_pos hmem]
        refine ⟨rfl, rfl, ?_, controls_erase_button.symm⟩
        refine ⟨iff_of_false Bool.false_ne_true fun h => h ?_, trivial⟩
        exact button_mem_controls.mpr hmem
      have hbuttons : buttonReleases s.pressedButtons (button :: buttons) =
          [.mouseButton button false] ++
            buttonReleases (s.releaseButton button).pressedButtons buttons := by
        have hsame : ∀ b ∈ buttons,
            decide (b ∈ s.pressedButtons) =
              decide (b ∈ (s.releaseButton button).pressedButtons) := by
          intro b hb
          have hne : b ≠ button := fun h => hfresh (h ▸ hb)
          simp [releaseButton, hmem, hne]
        unfold buttonReleases
        rw [List.filter_cons_of_pos (by simpa using hmem), List.filter_congr hsame]
        rfl
      rw [hbuttons]
      exact hone.trans hrest
    · have hsame : s.releaseButton button = s := if_neg hmem
      rw [hsame] at hrest ⊢
      have hbuttons : buttonReleases s.pressedButtons (button :: buttons) =
          buttonReleases s.pressedButtons buttons := by
        unfold buttonReleases
        rw [List.filter_cons_of_neg (by simpa using hmem)]
      rw [hbuttons]
      exact hrest

/-- The releases of what only the removed devices held. -/
def releases (s : EvdevCapture) (indexes : List ℕ) : List InputEvent :=
  keyReleases s.pressedKeys
      ((keysOf (s.removed indexes)).difference (keysOf (s.retained indexes))) ++
    buttonReleases s.pressedButtons
      ((buttonsOf (s.removed indexes)).difference (buttonsOf (s.retained indexes)))

lemma releases_removeDevices (indexes : List ℕ) :
    Releases
      { s with
        devices := s.retained indexes
        pendingEvents := s.pendingEvents ++ (s.removed indexes).flatMap Device.queue }
      (s.removeDevices indexes) (s.releases indexes) := by
  obtain ⟨hkeys, hbuttons⟩ := releases_keys (BTreeSet.nodup_difference
    (s := keysOf (s.removed indexes)) (t := keysOf (s.retained indexes)))
    { s with
      devices := s.retained indexes
      pendingEvents := s.pendingEvents ++ (s.removed indexes).flatMap Device.queue }
  have hboth := hkeys.trans (releases_buttons (BTreeSet.nodup_difference
    (s := buttonsOf (s.removed indexes)) (t := buttonsOf (s.retained indexes))) _)
  rw [hbuttons] at hboth
  exact hboth

lemma mem_foldl_extend {α : Type} [Ranked α] {f : Device → BTreeSet α} {a : α}
    {devices : List Device} {set : BTreeSet α} :
    a ∈ devices.foldl (fun set d => set.extend (f d)) set ↔ a ∈ set ∨ ∃ d ∈ devices, a ∈ f d := by
  induction devices generalizing set with
  | nil => simp
  | cons d devices ih =>
    rw [List.foldl_cons, ih, BTreeSet.mem_extend, List.exists_mem_cons_iff, or_assoc]

lemma mem_keysOf {devices : List Device} {usage : HidUsage} :
    usage ∈ keysOf devices ↔ ∃ d ∈ devices, .key usage ∈ d.held := by
  rw [keysOf, mem_foldl_extend, or_iff_right BTreeSet.not_mem_empty]
  simp only [Device.held, key_mem_controls]

lemma mem_buttonsOf {devices : List Device} {button : MouseButton} :
    button ∈ buttonsOf devices ↔ ∃ d ∈ devices, .button button ∈ d.held := by
  rw [buttonsOf, mem_foldl_extend, or_iff_right BTreeSet.not_mem_empty]
  simp only [Device.held, button_mem_controls]

variable {indexes : List ℕ}

lemma edges_releases_release : ∀ e ∈ edges (s.releases indexes), e.2 = false := by
  intro e he
  obtain ⟨event, hevent, hedge⟩ := List.mem_filterMap.mp he
  rcases List.mem_append.mp hevent with hevent | hevent
  · obtain ⟨usage, -, rfl⟩ := List.mem_map.mp hevent
    obtain rfl := Option.some.inj hedge
    rfl
  · obtain ⟨button, -, rfl⟩ := List.mem_map.mp hevent
    obtain rfl := Option.some.inj hedge
    rfl

/-- Released is what the capture has for held and only removed devices hold. -/
lemma mem_edges_releases : (c, false) ∈ edges (s.releases indexes) ↔
    c ∈ s.shared ∧ (∃ d ∈ s.removed indexes, c ∈ d.held) ∧
      ¬∃ d ∈ s.retained indexes, c ∈ d.held := by
  rw [releases, edges_append, List.mem_append]
  cases c with
  | key usage =>
    rw [← mem_keysOf, ← mem_keysOf, ← BTreeSet.mem_difference, shared, key_mem_controls, and_comm]
    simp only [edges, keyReleases, buttonReleases]
    simp [edge]
  | button button =>
    rw [← mem_buttonsOf, ← mem_buttonsOf, ← BTreeSet.mem_difference, shared, button_mem_controls,
      and_comm]
    simp only [edges, keyReleases, buttonReleases]
    simp [edge]

lemma held_split : (∃ d ∈ s.devices, c ∈ d.held) ↔
    (∃ d ∈ s.removed indexes, c ∈ d.held) ∨ ∃ d ∈ s.retained indexes, c ∈ d.held := by
  simp only [removed, retained, List.mem_map, List.mem_filter, decide_eq_true_iff]
  constructor
  · rintro ⟨d, hd, hheld⟩
    obtain ⟨i, hi⟩ := List.mem_iff_getElem?.mp hd
    have hmem : (d, i) ∈ s.devices.zipIdx := List.mem_zipIdx_iff_getElem?.mpr hi
    by_cases hindex : i ∈ indexes
    · exact Or.inl ⟨d, ⟨(d, i), ⟨hmem, hindex⟩, rfl⟩, hheld⟩
    · exact Or.inr ⟨d, ⟨(d, i), ⟨hmem, hindex⟩, rfl⟩, hheld⟩
  · rintro (⟨d, ⟨e, ⟨he, -⟩, rfl⟩, hheld⟩ | ⟨d, ⟨e, ⟨he, -⟩, rfl⟩, hheld⟩)
    · exact ⟨e.1, List.mem_of_getElem? (List.mem_zipIdx_iff_getElem?.mp he), hheld⟩
    · exact ⟨e.1, List.mem_of_getElem? (List.mem_zipIdx_iff_getElem?.mp he), hheld⟩

/-- Behind a removal what is held is what the devices that stay hold. -/
lemma covered_removeDevices (hcovered : s.Covered) : (s.removeDevices indexes).Covered := by
  intro c
  have hreleases := s.releases_removeDevices indexes
  rw [hreleases.devices, ← hreleases.after, Held.mem_after_releases edges_releases_release,
    mem_edges_releases]
  have hsplit : c ∈ s.shared ↔
      (∃ d ∈ s.removed indexes, c ∈ d.held) ∨ ∃ d ∈ s.retained indexes, c ∈ d.held :=
    (hcovered c).trans held_split
  show c ∈ s.shared ∧ ¬(c ∈ s.shared ∧ _) ↔ ∃ d ∈ s.retained indexes, c ∈ d.held
  rw [hsplit]
  generalize (∃ d ∈ s.removed indexes, c ∈ d.held) = gone
  generalize (∃ d ∈ s.retained indexes, c ∈ d.held) = stays
  tauto

/-- The events of the removed devices and the releases, before those of the devices that stay. -/
lemma waiting_removeDevices : (s.removeDevices indexes).waiting =
    s.pendingEvents ++ (s.removed indexes).flatMap Device.queue ++ s.releases indexes ++
      (s.retained indexes).flatMap Device.queue := by
  have hreleases := s.releases_removeDevices indexes
  rw [waiting, queues, hreleases.pending, hreleases.devices, ← List.flatMap_def]

/-! ### Iterations -/

/-- Between the removals the stream and what waits alternate, and leave held what the capture has
for held. -/
structure Kept (s : EvdevCapture) (out : List InputEvent) : Prop where
  alternates : Alternates ∅ (edges (out ++ s.waiting))
  after : Held.after ∅ (edges (out ++ s.waiting)) = s.shared

/-- The order the events were accepted in, with the releases behind. -/
def accepted (s : EvdevCapture) (indexes : List ℕ) : List InputEvent :=
  s.waiting ++ s.releases indexes

/-- Devices go away, and their events and releases come before events of the devices that stay
in another order than they were accepted in, for some key or button. -/
def Overtakes (s : EvdevCapture) (cycle : Cycle) : Prop :=
  s.waiting = [] ∧ cycle.disconnected ≠ [] ∧
    ∃ c, only c (edges (((s.reload cycle.plugged).readAll cycle.reads).removeDevices
        cycle.disconnected).waiting) ≠
      only c (edges (((s.reload cycle.plugged).readAll cycle.reads).accepted cycle.disconnected))

lemma devices_perm : (s.removed indexes ++ s.retained indexes).Perm s.devices := by
  have hperm := List.filter_append_perm (fun e : Device × ℕ => decide (e.2 ∈ indexes))
    s.devices.zipIdx
  have hmap := hperm.map Prod.fst
  rw [List.map_append, List.zipIdx_map_fst] at hmap
  simpa only [removed, retained, decide_not] using hmap

lemma waiting_perm : (s.accepted indexes).Perm (s.removeDevices indexes).waiting := by
  have hqueues : ((s.removed indexes).flatMap Device.queue ++
      (s.retained indexes).flatMap Device.queue).Perm s.queues.flatten := by
    rw [← List.flatMap_append, queues, ← List.flatMap_def]
    exact devices_perm.flatMap_right _
  have hback : (s.queues.flatten ++ s.releases indexes).Perm
      ((s.removed indexes).flatMap Device.queue ++ (s.retained indexes).flatMap Device.queue ++
        s.releases indexes) := hqueues.symm.append_right _
  have hswap : ((s.removed indexes).flatMap Device.queue ++
      (s.retained indexes).flatMap Device.queue ++ s.releases indexes).Perm
      ((s.removed indexes).flatMap Device.queue ++ (s.releases indexes ++
        (s.retained indexes).flatMap Device.queue)) := by
    rw [List.append_assoc]
    exact List.perm_append_comm.append_left _
  rw [waiting_removeDevices, accepted, waiting, List.append_assoc, List.append_assoc,
    List.append_assoc]
  exact (hback.trans hswap).append_left _

lemma waiting_reload (plugged : List Kind) : (s.reload plugged).waiting = s.waiting := by
  have hempty : ((plugged.map Device.opened).map Device.queue).flatten = [] := by
    rw [List.flatten_eq_nil_iff]
    intro q hq
    simp only [List.map_map, List.mem_map] at hq
    obtain ⟨kind, -, rfl⟩ := hq
    rfl
  rw [waiting, queues, reload, List.map_append, List.flatten_append, hempty, List.append_nil]
  rfl

lemma covered_reload (hcovered : s.Covered) (plugged : List Kind) : (s.reload plugged).Covered := by
  intro c
  refine (hcovered c).trans ⟨fun ⟨d, hd, hheld⟩ => ⟨d, List.mem_append_left _ hd, hheld⟩, ?_⟩
  rintro ⟨d, hd, hheld⟩
  rcases List.mem_append.mp hd with hd | hd
  · exact ⟨d, hd, hheld⟩
  · obtain ⟨kind, -, rfl⟩ := List.mem_map.mp hd
    cases c <;> simp [Device.held, Device.opened] at hheld

lemma popQueue_some {devices devices' : List Device} {event : InputEvent}
    (h : popQueue devices = some (event, devices')) :
    (devices.map Device.queue).flatten = event :: (devices'.map Device.queue).flatten ∧
      devices'.map Device.held = devices.map Device.held := by
  induction devices generalizing devices' with
  | nil => cases h
  | cons d devices ih =>
    rw [popQueue] at h
    rcases hqueue : d.queue with _ | ⟨first, queue⟩
    · rw [hqueue] at h
      obtain ⟨⟨event', rest⟩, hrest, heq⟩ := Option.map_eq_some_iff.mp h
      cases heq
      obtain ⟨hflatten, hheld⟩ := ih hrest
      simp only [List.map_cons, List.flatten_cons, hqueue, List.nil_append, hheld]
      exact ⟨hflatten, trivial⟩
    · rw [hqueue] at h
      cases h
      simp only [List.map_cons, List.flatten_cons, hqueue, List.cons_append]
      exact ⟨trivial, rfl⟩

lemma popQueue_none {devices : List Device} (h : popQueue devices = none) :
    (devices.map Device.queue).flatten = [] := by
  induction devices with
  | nil => rfl
  | cons d devices ih =>
    rw [popQueue] at h
    rcases hqueue : d.queue with _ | ⟨first, queue⟩
    · rw [hqueue] at h
      rw [List.map_cons, List.flatten_cons, hqueue, List.nil_append]
      exact ih (Option.map_eq_none_iff.mp h)
    · rw [hqueue] at h
      cases h

/-- An iteration returns the first event that waits, or reads the devices. -/
inductive Moves (s : EvdevCapture) (cycle : Cycle) : EvdevCapture × Option InputEvent → Prop
  | popped {s' : EvdevCapture} {event : InputEvent} (hwaiting : s.waiting = event :: s'.waiting)
      (hshared : s'.shared = s.shared) (hcovered : s.Covered → s'.Covered) :
      Moves s cycle (s', some event)
  | polled (hwaiting : s.waiting = []) : Moves s cycle ((s.reload cycle.plugged).poll cycle, none)

lemma covered_of_held {s' : EvdevCapture} (hshared : s'.shared = s.shared)
    (hheld : s'.devices.map Device.held = s.devices.map Device.held) (hcovered : s.Covered) :
    s'.Covered := by
  have hmem : ∀ (devices : List Device) (c : KeyOrButton),
      (∃ d ∈ devices, c ∈ d.held) ↔ ∃ held ∈ devices.map Device.held, c ∈ held := by
    intro devices c
    simp
  intro c
  rw [hshared, hcovered c, hmem, hmem, hheld]

lemma moves_nextEvent (cycle : Cycle) : Moves s cycle (s.nextEvent cycle) := by
  have hwaiting := s.waiting_reload cycle.plugged
  unfold nextEvent
  simp only
  rcases hpending : (s.reload cycle.plugged).pendingEvents with _ | ⟨event, rest⟩
  · simp only
    rcases hpop : popQueue (s.reload cycle.plugged).devices with _ | ⟨event, devices⟩
    · refine .polled ?_
      rw [← hwaiting, waiting, hpending, queues, popQueue_none hpop]
      rfl
    · obtain ⟨hflatten, hheld⟩ := popQueue_some hpop
      refine .popped ?_ rfl fun hcovered =>
        covered_of_held (s := s.reload cycle.plugged) rfl hheld
          (covered_reload hcovered cycle.plugged)
      rw [← hwaiting, waiting, hpending, queues, hflatten]
      rfl
  · refine .popped ?_ rfl fun hcovered =>
      covered_of_held (s := s.reload cycle.plugged) rfl rfl
        (covered_reload hcovered cycle.plugged)
    rw [← hwaiting, waiting, hpending]
    rfl

lemma emptyFrom_of_waiting (h : s.waiting = []) : s.EmptyFrom 0 := by
  intro j q _ hj
  have hflatten := (List.append_eq_nil_iff.mp h).2
  exact List.flatten_eq_nil_iff.mp hflatten q (List.mem_of_getElem? hj)

lemma reads_poll (hcovered : s.Covered) (hwaiting : s.waiting = []) (cycle : Cycle) :
    Reads (s.reload cycle.plugged) ((s.reload cycle.plugged).readAll cycle.reads) := by
  refine reads_readAll (covered_reload hcovered cycle.plugged) ?_ cycle.reads
  exact emptyFrom_of_waiting ((s.waiting_reload cycle.plugged).trans hwaiting)

lemma Covered.nextEvent (hcovered : s.Covered) (cycle : Cycle) : (s.nextEvent cycle).1.Covered := by
  have hmoves := s.moves_nextEvent cycle
  generalize s.nextEvent cycle = r at hmoves
  cases hmoves with
  | popped hwaiting hshared hcovered' => exact hcovered' hcovered
  | polled hwaiting =>
    have hreads := reads_poll hcovered hwaiting cycle
    unfold poll
    simp only
    split_ifs
    · exact hreads.covered
    · exact covered_removeDevices hreads.covered

lemma Kept.reads {s' : EvdevCapture} {out : List InputEvent} (h : s.Kept out)
    (hreads : Reads s s') : s'.Kept out := by
  obtain ⟨new, hwaiting, halternates, hafter⟩ := hreads.grows
  have hsplit : edges (out ++ s'.waiting) = edges (out ++ s.waiting) ++ edges new := by
    rw [hwaiting, ← List.append_assoc, edges_append]
  refine ⟨?_, ?_⟩
  · rw [hsplit, Held.alternates_append, h.after]
    exact ⟨h.alternates, halternates⟩
  · rw [hsplit, Held.after_append, h.after, hafter]

/-- A removal keeps the stream alternating exactly if each key and button keeps its order. -/
lemma Kept.removeDevices {out : List InputEvent} (h : s.Kept out) (indexes : List ℕ) :
    (s.removeDevices indexes).Kept out ↔
      ∀ c, only c (edges (s.removeDevices indexes).waiting) =
        only c (edges (s.accepted indexes)) := by
  have hreleases := s.releases_removeDevices indexes
  have hsplit : edges (out ++ s.accepted indexes) =
      edges (out ++ s.waiting) ++ edges (s.releases indexes) := by
    rw [accepted, ← List.append_assoc, edges_append]
  have halternates : Alternates ∅ (edges (out ++ s.accepted indexes)) := by
    rw [hsplit, Held.alternates_append, h.after]
    exact ⟨h.alternates, hreleases.alternates⟩
  have hafter : Held.after ∅ (edges (out ++ s.accepted indexes)) =
      (s.removeDevices indexes).shared := by
    rw [hsplit, Held.after_append, h.after]
    exact hreleases.after
  have hperm : (edges (out ++ s.accepted indexes)).Perm
      (edges (out ++ (s.removeDevices indexes).waiting)) :=
    (waiting_perm.append_left out).filterMap edge
  have hiff : Alternates ∅ (edges (out ++ (s.removeDevices indexes).waiting)) ↔
      ∀ c, only c (edges (s.removeDevices indexes).waiting) =
        only c (edges (s.accepted indexes)) := by
    rw [Held.alternates_perm_iff halternates hperm]
    refine forall_congr' fun c => ?_
    rw [edges_append, edges_append, Held.only_append, Held.only_append,
      List.append_cancel_left_eq]
  refine ⟨fun hkept => hiff.mp hkept.alternates, fun honly => ⟨hiff.mpr honly, ?_⟩⟩
  rw [← hafter]
  refine Held.after_eq_of_only fun c => ?_
  rw [edges_append, edges_append, Held.only_append, Held.only_append, honly c]

/-- An iteration keeps the stream alternating exactly if no removal overtakes. -/
lemma Kept.nextEvent_iff {out : List InputEvent} (hcovered : s.Covered) (h : s.Kept out)
    (cycle : Cycle) : (s.nextEvent cycle).1.Kept (out ++ (s.nextEvent cycle).2.toList) ↔
      ¬s.Overtakes cycle := by
  have hmoves := s.moves_nextEvent cycle
  generalize s.nextEvent cycle = r at hmoves
  cases hmoves with
  | @popped s' event hwaiting hshared hcovered' =>
    have hsame : out ++ [event] ++ s'.waiting = out ++ s.waiting := by
      rw [hwaiting, List.append_assoc]
      rfl
    refine iff_of_true ⟨?_, ?_⟩ fun hover => ?_
    · exact hsame ▸ h.alternates
    · rw [hshared]
      exact hsame ▸ h.after
    · rw [hover.1] at hwaiting
      cases hwaiting
  | polled hwaiting =>
    have hreads := reads_poll hcovered hwaiting cycle
    have hreload : (s.reload cycle.plugged).Kept out := by
      refine ⟨?_, ?_⟩
      · rw [waiting_reload]
        exact h.alternates
      · rw [waiting_reload]
        exact h.after
    have hkept := hreload.reads hreads
    rw [Option.toList_none, List.append_nil]
    unfold poll Overtakes
    simp only
    by_cases hgone : cycle.disconnected = []
    · rw [if_pos hgone]
      exact iff_of_true hkept fun hover => hover.2.1 hgone
    · rw [if_neg hgone, hkept.removeDevices, and_iff_right hwaiting, and_iff_right hgone]
      push Not
      rfl

end EvdevCapture

/-! ### Runs -/

lemma stream_snoc (cycles : List Cycle) (cycle : Cycle) :
    stream (cycles ++ [cycle]) =
      stream cycles ++ ((after cycles).nextEvent cycle).2.toList := by
  unfold stream
  rw [Trace.outputs_snoc, List.reduceOption_append]
  rcases ((after cycles).nextEvent cycle).2 with _ | event <;> rfl

lemma covered_after (cycles : List Cycle) : (after cycles).Covered := by
  refine Trace.always (I := fun _ s => EvdevCapture.Covered s) ?_
    fun m cycle hm => hm.nextEvent cycle
  intro c
  cases c <;> simp [EvdevCapture.shared, EvdevCapture.empty]

lemma kept_iff (cycles : List Cycle) :
    Trace.Each (fun before cycle => ¬(after before).Overtakes cycle) cycles ↔
      ∀ before, before <+: cycles → (after before).Kept (stream before) := by
  refine Trace.each_iff ⟨trivial, ?_⟩ fun m cycle _ _ hbefore => ?_
  · ext c
    cases c <;> simp [EvdevCapture.shared, EvdevCapture.empty, stream, EvdevCapture.waiting,
      EvdevCapture.queues, edges]
  · have hkept := hbefore m (List.prefix_refl m)
    rw [stream_snoc, after, Trace.final_snoc]
    exact hkept.nextEvent_iff (covered_after m) cycle

/-- A call of `next_event` that comes upon nothing. -/
def idle : Cycle := ⟨[], fun _ => [], []⟩

lemma nextEvent_idle {s : EvdevCapture} :
    (s.nextEvent idle).1.waiting = s.waiting.tail ∧
      (s.nextEvent idle).2.toList ++ (s.nextEvent idle).1.waiting = s.waiting ∧
      (s.nextEvent idle).1.shared = s.shared := by
  have hmoves := s.moves_nextEvent idle
  generalize s.nextEvent idle = r at hmoves
  cases hmoves with
  | popped hwaiting hshared hcovered =>
    rw [hwaiting]
    exact ⟨rfl, rfl, hshared⟩
  | polled hwaiting =>
    have hreload : s.reload [] = s := by
      rw [EvdevCapture.reload, List.map_nil, List.append_nil]
    have hread : s.readAll (fun _ => []) = s := by
      unfold EvdevCapture.readAll
      induction List.range s.devices.length with
      | nil => rfl
      | cons i l ih => exact ih
    have hsame : (s.reload idle.plugged).poll idle = s := by
      unfold EvdevCapture.poll idle
      rw [hreload, hread]
      exact if_pos rfl
    rw [hsame, hwaiting]
    exact ⟨rfl, rfl, rfl⟩

/-- Calls that come upon nothing return what waits. -/
lemma drain (cycles : List Cycle) (n : ℕ) :
    (after (cycles ++ List.replicate n idle)).waiting = (after cycles).waiting.drop n ∧
      stream (cycles ++ List.replicate n idle) ++
          (after (cycles ++ List.replicate n idle)).waiting =
        stream cycles ++ (after cycles).waiting ∧
      (after (cycles ++ List.replicate n idle)).shared = (after cycles).shared := by
  induction n with
  | zero =>
    rw [List.replicate_zero, List.append_nil]
    exact ⟨rfl, rfl, rfl⟩
  | succ n ih =>
    obtain ⟨hwaiting, hstream, hshared⟩ := ih
    rw [List.replicate_succ', ← List.append_assoc, stream_snoc, after, Trace.final_snoc]
    obtain ⟨hwaiting', hstream', hshared'⟩ :=
      nextEvent_idle (s := after (cycles ++ List.replicate n idle))
    refine ⟨?_, ?_, hshared'.trans hshared⟩
    · rw [hwaiting', hwaiting, List.tail_drop]
    · rw [List.append_assoc, hstream', hstream]

/-- Presses and releases of each key and button alternate, and once nothing waits the controls
left pressed are those the devices hold. -/
structure Faithful (cycles : List Cycle) : Prop where
  alternates : Alternates ∅ (edges (stream cycles))
  held : (after cycles).waiting = [] →
    ∀ c, c ∈ Held.after ∅ (edges (stream cycles)) ↔ ∃ d ∈ (after cycles).devices, c ∈ d.held

lemma faithful_of_kept {cycles : List Cycle} (h : (after cycles).Kept (stream cycles)) :
    Faithful cycles := by
  refine ⟨?_, fun hwaiting c => ?_⟩
  · have halternates := h.alternates
    rw [edges_append, Held.alternates_append] at halternates
    exact halternates.1
  · have hafter := h.after
    rw [hwaiting, List.append_nil] at hafter
    rw [hafter]
    exact covered_after cycles c

/-- **Held state of several devices.** Along a run, and however long `next_event` is called after
it, presses and releases of each key and button alternate and leave held what the devices hold,
exactly if no removal returns presses and releases of a key or button in another order than they
were accepted in. -/
theorem held_together_iff (cycles : List Cycle) :
    (∀ before n, before <+: cycles → Faithful (before ++ List.replicate n idle)) ↔
      Trace.Each (fun before cycle => ¬(after before).Overtakes cycle) cycles := by
  rw [kept_iff]
  constructor
  · intro hfaithful before hpre
    obtain ⟨halternates, hheld⟩ := hfaithful before (after before).waiting.length hpre
    obtain ⟨hwaiting, hstream, hshared⟩ := drain before (after before).waiting.length
    rw [List.drop_length] at hwaiting
    rw [hwaiting, List.append_nil] at hstream
    rw [hstream] at halternates hheld
    refine ⟨halternates, Finset.ext fun c => ?_⟩
    rw [hheld hwaiting c, ← hshared]
    exact (covered_after _ c).symm
  · intro hkept before n hpre
    have heach : Trace.Each (fun before cycle => ¬(after before).Overtakes cycle)
        (before ++ List.replicate n idle) := by
      have hcycles := (kept_iff cycles).mpr hkept
      have hbefore := hcycles.of_prefix hpre
      induction n with
      | zero => rwa [List.replicate_zero, List.append_nil]
      | succ n ih =>
        rw [List.replicate_succ', ← List.append_assoc, Trace.each_snoc]
        exact ⟨ih, fun hover => hover.2.1 rfl⟩
    exact faithful_of_kept ((kept_iff _).mp heach _ (List.prefix_refl _))

/-- A keyboard and another. -/
def keyboards : Cycle :=
  ⟨[⟨true, false, false, false⟩, ⟨true, false, false, false⟩], fun _ => [], []⟩

/-- `a` goes down on the first keyboard. Later it goes up there and down on the second, which is
pulled out. -/
def pulledOut : List Cycle :=
  [keyboards, ⟨[], fun i => if i = 0 then [(0, ⟨evKey, 30, 1⟩)] else [], []⟩, idle,
    ⟨[], fun i => [(5, ⟨evKey, 30, if i = 0 then 0 else 1⟩)], [1]⟩, idle, idle, idle]

theorem pressed_twice :
    stream pulledOut = [.key ⟨4, true, false⟩, .key ⟨4, true, false⟩, .key ⟨4, false, false⟩,
        .key ⟨4, false, false⟩] ∧
      ¬Alternates ∅ (edges (stream pulledOut)) := by
  decide

end TheKvm.Evdev

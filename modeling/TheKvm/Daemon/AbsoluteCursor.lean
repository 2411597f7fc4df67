import TheKvm.Daemon.RemoteInput
import TheKvm.Lib.Trace
import TheKvm.Platform.Absolute

/-!
The visible pointer of a Windows receiver beside its tracked cursor.

Both start at the point of the entry warp and take the same deltas. The tracked cursor is pinned
to the screen at every event, the injector pins only the units that it injects, so after a push
past an edge the way back moves the one and not the other.
-/

namespace TheKvm

/-- A packet as it is taken, and what the operating system shows then. -/
structure TakenPacket where
  packet : InputPacket
  os : OsTruth

/-- The motion of a packet that the filters of its number let through. -/
def RemoteInput.motion (s : RemoteInput) (packet : InputPacket) : Option (Int32 × Int32) :=
  match packet.event with
  | .mouseMove dx dy =>
    if packet.sequence ∉ s.seenSequences ∧ (s.motionSequence.accept packet.sequence).2 then
      some (dx, dy)
    else none
  | _ => none

/-- The last pixel of a screen along an axis. -/
def Screen.lastPixel (screen : Screen) (axis : Axis) : ℤ :=
  ((axis.of (screen.width, screen.height) : ℕ) : ℤ) - 1

/-- The pixel that the sum of the injector shows. -/
def AbsoluteState.shown (a : AbsoluteState) (screen : Screen) (axis : Axis) : ℤ :=
  pin 0 (screen.lastPixel axis) (axis.of a.pos)

structure AbsoluteReceiver where
  remote : RemoteInput
  absolute : AbsoluteState

namespace AbsoluteReceiver

/-- One packet on a single monitor, and what it injects if it is a motion. -/
def step (config : ReceiverConfig) (peerGeometry : Option ScreenGeometry) (r : AbsoluteReceiver)
    (a : TakenPacket) : AbsoluteReceiver × Option MouseInput :=
  match r.remote.process config a.os peerGeometry a.packet with
  | (remote, .inject (.mouseMove dx dy)) =>
    let (absolute, input) := r.absolute.motionInput true dx dy
    (⟨remote, absolute⟩, some input)
  | (remote, _) => (⟨remote, r.absolute⟩, none)

/-- The receiver after some packets. -/
abbrev after (config : ReceiverConfig) (peerGeometry : Option ScreenGeometry)
    (r : AbsoluteReceiver) (l : List TakenPacket) : AbsoluteReceiver :=
  Trace.final (step config peerGeometry) r l

/-- An entry on the tracked screen: the target has its size, and the sum starts at the tracked
point. -/
structure Entered (config : ReceiverConfig) (screen : Screen) (r : AbsoluteReceiver) : Prop where
  located : ∃ screenId, r.remote.tracker.remoteScreen = some screenId ∧
    config.layout.screen screenId = some screen
  announced : ∃ target, r.absolute.target = some target ∧
    target.dims = (screen.width, screen.height)
  start : ∃ p : ℕ × ℕ, r.remote.tracker.remoteCursor = some p ∧
    r.absolute.pos = ((p.1 : ℤ), (p.2 : ℤ))

/-- What a motion may do to the sum: if it is injected, the sum fits 64 bits and does not come back
from beyond an edge, short of the other one; if the visible pointer refuses the hop, that pointer
is where the sum shows it. -/
def Steady (screen : Screen) (absolute : AbsoluteState) (os : OsTruth) (d : Int32 × Int32) :
    HopOutcome → Prop
  | .drive => ∀ axis : Axis,
    let p := axis.of absolute.pos
    let step := (axis.of d).toInt
    (-2 ^ 63 ≤ p + step ∧ p + step < 2 ^ 63) ∧ Onward 0 (screen.lastPixel axis) p step
  | .vetoed => ∀ truth ∈ os.cursorPosition, ∀ axis : Axis,
    ((axis.of truth : ℕ) : ℤ) = absolute.shown screen axis
  | _ => True

/-- The motion of a packet of a run is steady, if the filters let one through. -/
def SteadyAt (config : ReceiverConfig) (peerGeometry : Option ScreenGeometry) (screen : Screen)
    (r₀ : AbsoluteReceiver) (m : List TakenPacket) (a : TakenPacket) : Prop :=
  let r := after config peerGeometry r₀ m
  ∀ d ∈ r.remote.motion a.packet,
    Steady screen r.absolute a.os d (r.remote.tracker.move config a.os peerGeometry d.1 d.2).2

/-- The units of the tracked cursor are injected. -/
def Follows (screen : Screen) (t : RemoteTracker) (input : MouseInput) : Prop :=
  ∃ x y : ℕ, t.remoteCursor = some (x, y) ∧
    input = ⟨absoluteUnits x (screen.lastPixel .horizontal),
      absoluteUnits y (screen.lastPixel .vertical), true⟩

end AbsoluteReceiver

/-! ### The tracked cursor -/

namespace RemoteTracker

variable {config : ReceiverConfig} {os : OsTruth} {geometry : Option ScreenGeometry}
  {t : RemoteTracker} {screenId : ScreenId} {screen : Screen} {x y : ℕ} {dx dy : Int32}

lemma requestHop_keeps (config : ReceiverConfig) (t : RemoteTracker) (screenId : ScreenId)
    (x y : ℕ) (dx dy : Int32) :
    (t.requestHop config screenId x y dx dy).1.remoteScreen = t.remoteScreen ∧
      (t.requestHop config screenId x y dx dy).1.remoteCursor = t.remoteCursor := by
  have hcredit (edge : Edge) (overflow : ℤ) :
      (t.creditHop edge overflow).remoteScreen = t.remoteScreen ∧
        (t.creditHop edge overflow).remoteCursor = t.remoteCursor := by
    rw [creditHop]
    split_ifs <;> exact ⟨rfl, rfl⟩
  have hpress : (t.pressHop config screenId x y dx dy).1.remoteScreen = t.remoteScreen ∧
      (t.pressHop config screenId x y dx dy).1.remoteCursor = t.remoteCursor := by
    rw [pressHop]
    split
    · exact ⟨rfl, rfl⟩
    · split
      · exact hcredit _ _
      · exact ⟨rfl, rfl⟩
  rw [requestHop]
  rcases hpair : t.pressHop config screenId x y dx dy with ⟨t', _ | _⟩
  · rwa [hpair] at hpress
  · rwa [hpair] at hpress

/-- The tracker is re-pinned to the visible pointer. -/
lemma cursor_of_veto {edge : Edge} {truth : ℕ × ℕ}
    (h : receiverEdgeTruthVeto config os screenId edge = some truth) :
    os.cursorPosition = some truth := by
  rw [receiverEdgeTruthVeto] at h
  split at h
  · split_ifs at h
    split at h
    · cases h
    · split_ifs at h
      rwa [‹os.cursorPosition = _›]
  · cases h

/-- Where a motion leaves the tracked cursor. -/
def Lands (os : OsTruth) (t : RemoteTracker) (screen : Screen) (x y : ℕ) (dx dy : Int32)
    (t' : RemoteTracker) : HopOutcome → Prop
  | .drive => t'.remoteCursor =
    some ((pin 0 ((screen.width - 1 : ℕ) : ℤ) (x + dx.toInt)).toNat,
      (pin 0 ((screen.height - 1 : ℕ) : ℤ) (y + dy.toInt)).toNat)
  | .vetoed => t'.remoteCursor = os.cursorPosition ∧ os.cursorPosition.isSome
  | _ => t'.remoteCursor = t.remoteCursor

variable (os geometry dx dy) in
/-- What a motion does to the tracker. -/
lemma move_lands (hscreen : t.remoteScreen = some screenId)
    (hlayout : config.layout.screen screenId = some screen)
    (hcursor : t.remoteCursor = some (x, y)) :
    (t.move config os geometry dx dy).1.remoteScreen = some screenId ∧
      Lands os t screen x y dx dy (t.move config os geometry dx dy).1
        (t.move config os geometry dx dy).2 := by
  obtain ⟨hscreen', hcursor'⟩ := requestHop_keeps config t screenId x y dx dy
  rw [hscreen] at hscreen'
  rw [move, hscreen, hcursor]
  rcases hhop : t.requestHop config screenId x y dx dy with ⟨t', _ | handoff⟩
  · rw [hhop] at hscreen'
    simp only [hhop, pinCursor, hlayout]
    exact ⟨hscreen', rfl⟩
  · rw [hhop] at hscreen' hcursor'
    simp only [hhop, hlayout]
    rcases hveto : receiverEdgeTruthVeto config os screenId handoff.edge with _ | truth
    · rcases handoffRequest config geometry screen x y dx dy handoff with error | message
      · exact ⟨hscreen', hcursor'⟩
      · exact ⟨hscreen', hcursor'⟩
    · exact ⟨hscreen', by rw [Lands, cursor_of_veto hveto]; exact ⟨rfl, rfl⟩⟩

end RemoteTracker

namespace RemoteInput

variable {config : ReceiverConfig} {os : OsTruth} {geometry : Option ScreenGeometry}
  {s : RemoteInput} {packet : InputPacket} {dx dy : Int32}

lemma apply_of_ne {event : InputEvent} (h : ∀ dx dy, event ≠ .mouseMove dx dy) :
    (s.apply config os geometry event).1.tracker = s.tracker ∧
      (s.apply config os geometry event).2 = .inject event := by
  cases event with
  | mouseMove dx dy => exact absurd rfl (h dx dy)
  | _ => exact ⟨rfl, rfl⟩

variable (config os geometry) in
lemma process_of_motion_none (h : s.motion packet = none) :
    (s.process config os geometry packet).1.tracker = s.tracker ∧
      ∀ dx dy, (s.process config os geometry packet).2 ≠ .inject (.mouseMove dx dy) := by
  rw [motion] at h
  rw [process]
  split_ifs with hseen
  · exact ⟨rfl, fun dx dy => RemoteOutcome.noConfusion⟩
  split at h
  · rename_i dx dy hevent
    have haccept : (s.motionSequence.accept packet.sequence).2 = false := by
      simpa [hseen] using h
    rw [hevent]
    simp only [haccept, Bool.false_eq_true, if_false]
    exact ⟨trivial, fun dx dy => RemoteOutcome.noConfusion⟩
  · rename_i hne
    simp only
    refine ⟨(apply_of_ne hne).1, fun dx dy heq => ?_⟩
    rw [(apply_of_ne hne).2] at heq
    exact hne dx dy (RemoteOutcome.inject.inj heq)

variable (config os geometry) in
lemma process_of_motion (h : s.motion packet = some (dx, dy)) :
    ∃ s' : RemoteInput, s'.tracker = s.tracker ∧
      s.process config os geometry packet = s'.apply config os geometry (.mouseMove dx dy) := by
  rw [motion] at h
  split at h
  · rename_i dx' dy' hevent
    split_ifs at h with hpass
    obtain ⟨rfl, rfl⟩ := Prod.mk.inj (Option.some.inj h)
    refine ⟨{ s with
      seenSequences := trimSeen (s.seenSequences.orderedInsert (· ≤ ·) packet.sequence)
      motionSequence := (s.motionSequence.accept packet.sequence).1 }, rfl, ?_⟩
    rw [process, if_neg hpass.1, hevent]
    simp only [hpass.2, if_true]
  · cases h

end RemoteInput

/-! ### Both side by side -/

namespace AbsoluteReceiver

variable {config : ReceiverConfig} {geometry : Option ScreenGeometry} {screen : Screen}
  {r : AbsoluteReceiver} {a : TakenPacket}

/-- The tracked cursor is where the sum is, or where the sum shows it. -/
structure Tracks (config : ReceiverConfig) (screen : Screen) (t : RemoteTracker)
    (absolute : AbsoluteState) : Prop where
  located : ∃ screenId, t.remoteScreen = some screenId ∧
    config.layout.screen screenId = some screen
  announced : ∃ target, absolute.target = some target ∧
    target.dims = (screen.width, screen.height)
  cursor : ∃ p : ℕ × ℕ, t.remoteCursor = some p ∧ ∀ axis : Axis,
    ((axis.of p : ℕ) : ℤ) = axis.of absolute.pos ∨
      ((axis.of p : ℕ) : ℤ) = absolute.shown screen axis

lemma Entered.tracks (h : r.Entered config screen) :
    Tracks config screen r.remote.tracker r.absolute := by
  obtain ⟨p, hcursor, hpos⟩ := h.start
  refine ⟨h.located, h.announced, p, hcursor, fun axis => .inl ?_⟩
  rw [hpos]
  cases axis <;> rfl

/-- A motion on an armed single monitor is added to the sum. -/
lemma motionInput_eq {absolute : AbsoluteState} {target : AbsoluteTarget} {dx dy : Int32}
    (h : absolute.target = some target) :
    absolute.motionInput true dx dy =
      ({ absolute with
          pos := (wrapI64 (absolute.pos.1 + dx.toInt), wrapI64 (absolute.pos.2 + dy.toInt))
          lastAbsolute := true },
        ⟨absoluteUnits (wrapI64 (absolute.pos.1 + dx.toInt)) (target.dims.1 - 1),
          absoluteUnits (wrapI64 (absolute.pos.2 + dy.toInt)) (target.dims.2 - 1), true⟩) := by
  have heligible : AbsoluteState.eligible true target = true := by
    simpa [AbsoluteState.eligible] using target.sane
  rw [AbsoluteState.motionInput, h]
  simp only [heligible, if_true]

variable (config geometry) in
lemma step_of_motion_none (h : r.remote.motion a.packet = none) :
    (step config geometry r a).1.remote.tracker = r.remote.tracker ∧
      (step config geometry r a).1.absolute = r.absolute ∧ (step config geometry r a).2 = none := by
  obtain ⟨htracker, hne⟩ :=
    RemoteInput.process_of_motion_none config a.os geometry h
  rw [step]
  split
  · rename_i remote dx dy heq
    exact absurd (by rw [heq]) (hne dx dy)
  · rename_i remote outcome heq
    rw [heq] at htracker
    exact ⟨htracker, rfl, rfl⟩

variable (config geometry) in
lemma step_of_motion {dx dy : Int32} (h : r.remote.motion a.packet = some (dx, dy)) :
    (step config geometry r a).1.remote.tracker =
        (r.remote.tracker.move config a.os geometry dx dy).1 ∧
      ((step config geometry r a).1.absolute, (step config geometry r a).2) =
        match (r.remote.tracker.move config a.os geometry dx dy).2 with
        | .drive =>
          ((r.absolute.motionInput true dx dy).1, some (r.absolute.motionInput true dx dy).2)
        | _ => (r.absolute, none) := by
  obtain ⟨s', htracker, hprocess⟩ :=
    RemoteInput.process_of_motion config a.os geometry h
  rw [step, hprocess, RemoteInput.apply, ← htracker]
  rcases s'.tracker.move config a.os geometry dx dy with ⟨t, _ | _ | message | error⟩ <;>
    exact ⟨rfl, rfl⟩

/-- From where the sum is or shows, a motion that goes on leads to where the sum shows it. -/
lemma pin_add {c p d span : ℤ} (hspan : 0 ≤ span) (hc : c = p ∨ c = pin 0 span p)
    (h : Onward 0 span p d) : pin 0 span (c + d) = pin 0 span (p + d) := by
  obtain rfl | rfl := hc
  · rfl
  · exact pin.add_of_onward hspan h

section

variable {t : RemoteTracker} {absolute : AbsoluteState} {os : OsTruth} {dx dy : Int32}

lemma Tracks.lastPixel_pos (h : Tracks config screen t absolute) (axis : Axis) :
    0 < screen.lastPixel axis := by
  obtain ⟨target, -, hdims⟩ := h.announced
  have hsane := target.sane
  rw [hdims] at hsane
  cases axis <;>
    · simp only [Screen.lastPixel, Axis.of]
      omega

/-- An injected motion whose sums fit is added to the sum and to the tracked cursor. -/
lemma Tracks.driven (h : Tracks config screen t absolute)
    (hfits : ∀ axis : Axis, -2 ^ 63 ≤ axis.of absolute.pos + (axis.of (dx, dy)).toInt ∧
      axis.of absolute.pos + (axis.of (dx, dy)).toInt < 2 ^ 63)
    {t' : RemoteTracker} {x y : ℕ} (hlands : RemoteTracker.Lands os t screen x y dx dy t' .drive) :
    absolute.motionInput true dx dy =
        ({ absolute with
            pos := (absolute.pos.1 + dx.toInt, absolute.pos.2 + dy.toInt), lastAbsolute := true },
          ⟨absoluteUnits (absolute.pos.1 + dx.toInt) (screen.lastPixel .horizontal),
            absoluteUnits (absolute.pos.2 + dy.toInt) (screen.lastPixel .vertical), true⟩) ∧
      t'.remoteCursor = some ((pin 0 (screen.lastPixel .horizontal) (x + dx.toInt)).toNat,
        (pin 0 (screen.lastPixel .vertical) (y + dy.toInt)).toNat) := by
  obtain ⟨target, htarget, hdims⟩ := h.announced
  have hspanX := h.lastPixel_pos .horizontal
  have hspanY := h.lastPixel_pos .vertical
  have hfitX := hfits .horizontal
  have hfitY := hfits .vertical
  simp only [Screen.lastPixel, Axis.of] at hspanX hspanY hfitX hfitY
  rw [motionInput_eq htarget, wrapI64_eq hfitX, wrapI64_eq hfitY, hdims, hlands]
  simp only [Screen.lastPixel, Axis.of]
  refine ⟨trivial, ?_⟩
  rw [show ((screen.width - 1 : ℕ) : ℤ) = screen.width - 1 by omega,
    show ((screen.height - 1 : ℕ) : ℤ) = screen.height - 1 by omega]

/-- A steady motion that is injected brings the tracked cursor to where the sum shows it. -/
lemma Tracks.drive (h : Tracks config screen t absolute)
    (hsteady : Steady screen absolute os (dx, dy) .drive) {t' : RemoteTracker} {x y : ℕ}
    (hcursor : t.remoteCursor = some (x, y)) (hscreen : t'.remoteScreen = t.remoteScreen)
    (hlands : RemoteTracker.Lands os t screen x y dx dy t' .drive) :
    Tracks config screen t' (absolute.motionInput true dx dy).1 ∧
      Follows screen t' (absolute.motionInput true dx dy).2 := by
  obtain ⟨p, hcursor', hagree⟩ := h.cursor
  obtain rfl := Option.some.inj (hcursor'.symm.trans hcursor)
  have hspanX := h.lastPixel_pos .horizontal
  have hspanY := h.lastPixel_pos .vertical
  obtain ⟨hinput, hlands⟩ := h.driven (fun axis => (hsteady axis).1) hlands
  have hX := pin_add hspanX.le (hagree .horizontal) (hsteady .horizontal).2
  have hY := pin_add hspanY.le (hagree .vertical) (hsteady .vertical).2
  simp only [Axis.of] at hX hY
  rw [hX, hY] at hlands
  have hposX := Int.toNat_of_nonneg (pin.ge hspanX.le (absolute.pos.1 + dx.toInt))
  have hposY := Int.toNat_of_nonneg (pin.ge hspanY.le (absolute.pos.2 + dy.toInt))
  rw [hinput]
  refine ⟨⟨?_, h.announced, _, hlands, fun axis => .inr ?_⟩, _, _, hlands, ?_⟩
  · rw [hscreen]
    exact h.located
  · cases axis
    · exact hposX
    · exact hposY
  · rw [absoluteUnits_of_pin hspanX hposX, absoluteUnits_of_pin hspanY hposY]

/-- On a screen with no more pixels than there are units along an axis, an injected motion shows
the tracked cursor only if it is steady. -/
theorem Tracks.drive_iff (h : Tracks config screen t absolute) {t' : RemoteTracker} {x y : ℕ}
    (hcursor : t.remoteCursor = some (x, y))
    (hshown : ∀ axis : Axis, ((axis.of (x, y) : ℕ) : ℤ) = absolute.shown screen axis)
    (hunits : ∀ axis : Axis, screen.lastPixel axis ≤ 65535)
    (hfits : ∀ axis : Axis, -2 ^ 63 ≤ axis.of absolute.pos + (axis.of (dx, dy)).toInt ∧
      axis.of absolute.pos + (axis.of (dx, dy)).toInt < 2 ^ 63)
    (hscreen : t'.remoteScreen = t.remoteScreen)
    (hlands : RemoteTracker.Lands os t screen x y dx dy t' .drive) :
    Follows screen t' (absolute.motionInput true dx dy).2 ↔
      Steady screen absolute os (dx, dy) .drive := by
  refine ⟨?_, fun hsteady => (h.drive hsteady hcursor hscreen hlands).2⟩
  rintro ⟨x', y', hcursor', hinput⟩
  obtain ⟨hsum, hlands⟩ := h.driven hfits hlands
  obtain ⟨rfl, rfl⟩ := Prod.mk.inj (Option.some.inj (hcursor'.symm.trans hlands))
  rw [hsum, MouseInput.mk.injEq] at hinput
  have honward {axis : Axis} {c d : ℤ} (hc : c = absolute.shown screen axis)
      (heq : absoluteUnits (axis.of absolute.pos + d) (screen.lastPixel axis) =
        absoluteUnits (pin 0 (screen.lastPixel axis) (c + d)).toNat (screen.lastPixel axis)) :
      Onward 0 (screen.lastPixel axis) (axis.of absolute.pos) d := by
    have hspan := h.lastPixel_pos axis
    rw [Int.toNat_of_nonneg (pin.ge hspan.le _)] at heq
    have hpin := absoluteUnits_inj hspan (hunits axis) heq
    rw [pin.idem hspan.le, hc] at hpin
    exact (pin.add_iff hspan).mp hpin.symm
  rintro (_ | _)
  · exact ⟨hfits .horizontal, honward (hshown .horizontal) hinput.1⟩
  · exact ⟨hfits .vertical, honward (hshown .vertical) hinput.2.1⟩

end

/-- **A steady packet** injects the units of the tracked cursor, if it injects a motion. -/
lemma Tracks.step (h : Tracks config screen r.remote.tracker r.absolute)
    (hsteady : ∀ d ∈ r.remote.motion a.packet,
      Steady screen r.absolute a.os d (r.remote.tracker.move config a.os geometry d.1 d.2).2) :
    Tracks config screen (step config geometry r a).1.remote.tracker
        (step config geometry r a).1.absolute ∧
      ∀ input, (step config geometry r a).2 = some input →
        Follows screen (step config geometry r a).1.remote.tracker input := by
  rcases hmotion : r.remote.motion a.packet with _ | ⟨dx, dy⟩
  · obtain ⟨htracker, habsolute, hnone⟩ := step_of_motion_none config geometry hmotion
    rw [htracker, habsolute]
    exact ⟨h, by simp [hnone]⟩
  obtain ⟨screenId, hscreen, hlayout⟩ := h.located
  obtain ⟨⟨x, y⟩, hcursor, hagree⟩ := h.cursor
  obtain ⟨hscreen', hlands⟩ :=
    RemoteTracker.move_lands a.os geometry dx dy hscreen hlayout hcursor
  obtain ⟨htracker, habsolute⟩ := step_of_motion config geometry hmotion
  have hsteady := hsteady (dx, dy) hmotion
  rw [htracker]
  rcases hmove : r.remote.tracker.move config a.os geometry dx dy
    with ⟨t, _ | _ | message | error⟩
  all_goals
    simp only [hmove] at hscreen' hlands habsolute hsteady
    obtain ⟨habsolute, hinput⟩ := Prod.mk.inj habsolute
    rw [habsolute, hinput]
  case drive =>
    obtain ⟨htracks, hunits⟩ := h.drive hsteady hcursor (hscreen'.trans hscreen.symm) hlands
    refine ⟨htracks, ?_⟩
    rintro _ ⟨⟩
    exact hunits
  case vetoed =>
    obtain ⟨truth, htruth⟩ := Option.isSome_iff_exists.mp hlands.2
    refine ⟨⟨⟨screenId, hscreen', hlayout⟩, h.announced, truth, hlands.1.trans htruth,
      fun axis => .inr (hsteady truth htruth axis)⟩, by simp⟩
  all_goals
    exact ⟨⟨⟨screenId, hscreen', hlayout⟩, h.announced, (x, y), hlands.trans hcursor, hagree⟩,
      by simp⟩

/-- **The visible pointer follows the tracked cursor.** After an entry on the tracked screen, in
runs whose motions are all steady, every injected motion shows the tracked cursor. -/
theorem units_follow_cursor (config : ReceiverConfig) (geometry : Option ScreenGeometry)
    (screen : Screen) (r₀ : AbsoluteReceiver) (l : List TakenPacket)
    (hentered : r₀.Entered config screen)
    (hsteady : Trace.Each (SteadyAt config geometry screen r₀) l) :
    ∀ m a, m ++ [a] <+: l → ∀ input,
      (step config geometry (after config geometry r₀ m) a).2 = some input →
        Follows screen (after config geometry r₀ (m ++ [a])).remote.tracker input := by
  intro m a hm input hinput
  have htracks : Tracks config screen (after config geometry r₀ m).remote.tracker
      (after config geometry r₀ m).absolute :=
    Trace.invariant
      (I := fun _ (r : AbsoluteReceiver) => Tracks config screen r.remote.tracker r.absolute)
      hentered.tracks (fun m a ht hs => (ht.step hs).1) (hsteady.earlier hm)
  rw [after, Trace.final_snoc]
  exact (htracks.step (hsteady m a hm)).2 input hinput

/-! ### Past the right edge -/

def lonelyScreen : Screen := ⟨⟨1⟩, "pc", 0, 0, 100, 100, none⟩

def lonely : ReceiverConfig := ⟨"pc", ⟨[lonelyScreen], some ⟨1⟩⟩, .double, .mirror⟩

/-- Entered at the middle. -/
def enteredMiddle : AbsoluteReceiver where
  remote := { RemoteInput.init with tracker := ⟨some ⟨1⟩, some (50, 50), none, 0⟩ }
  absolute := (AbsoluteState.default.setAbsoluteTarget 100 100).noteWarp (some (100, 100)) 50 50

/-- 100 px to the right, and then `back` to the left. -/
def thereAndBack (back : Int32) : List TakenPacket :=
  [⟨⟨1, .mouseMove 100 0⟩, ⟨none, false, none⟩⟩,
    ⟨⟨2, .mouseMove (-back) 0⟩, ⟨none, false, none⟩⟩]

lemma enteredMiddle_entered : enteredMiddle.Entered lonely lonelyScreen where
  located := ⟨⟨1⟩, rfl, rfl⟩
  announced := ⟨⟨(100, 100), by decide⟩, rfl, rfl⟩
  start := ⟨(50, 50), rfl, by decide⟩

instance (lo hi p d : ℤ) : Decidable (Onward lo hi p d) := inferInstanceAs (Decidable (_ ∨ _ ∨ _))

instance (P : Axis → Prop) [DecidablePred P] : Decidable (∀ axis, P axis) :=
  decidable_of_iff (P .horizontal ∧ P .vertical)
    ⟨fun h axis => by cases axis; exacts [h.1, h.2], fun h => ⟨h _, h _⟩⟩

instance (screen : Screen) (absolute : AbsoluteState) (os : OsTruth) (d : Int32 × Int32) :
    (outcome : HopOutcome) → Decidable (Steady screen absolute os d outcome)
  | .drive => inferInstanceAs (Decidable (∀ _ : Axis, _ ∧ _))
  | .vetoed => inferInstanceAs (Decidable (∀ truth ∈ os.cursorPosition, ∀ _ : Axis, _ = _))
  | .request _ => .isTrue trivial
  | .failed _ => .isTrue trivial

instance (config : ReceiverConfig) (geometry : Option ScreenGeometry) (screen : Screen)
    (r₀ : AbsoluteReceiver) (m : List TakenPacket) (a : TakenPacket) :
    Decidable (SteadyAt config geometry screen r₀ m a) :=
  Option.decidableForallMem _

/-- From past the right edge to the left one both come to the first pixel. -/
theorem swept_across : Trace.Each (SteadyAt lonely none lonelyScreen enteredMiddle)
      (thereAndBack 200) ∧
    Trace.outputs (step lonely none) enteredMiddle (thereAndBack 200) =
      [some ⟨65535, 33098, true⟩, some ⟨0, 33098, true⟩] ∧
    ∀ m a, m ++ [a] <+: thereAndBack 200 → ∀ input,
      (step lonely none (after lonely none enteredMiddle m) a).2 = some input →
        Follows lonelyScreen (after lonely none enteredMiddle (m ++ [a])).remote.tracker input := by
  have hsteady : Trace.Each (SteadyAt lonely none lonelyScreen enteredMiddle)
      (thereAndBack 200) := by decide
  exact ⟨hsteady, by decide, units_follow_cursor lonely none lonelyScreen enteredMiddle _
    enteredMiddle_entered hsteady⟩

/-- Ten pixels back from past the right edge move the tracked cursor and not the visible one. -/
theorem pushed_past_the_edge : enteredMiddle.Entered lonely lonelyScreen ∧
    (after lonely none enteredMiddle (thereAndBack 10)).remote.tracker.remoteCursor =
      some (89, 50) ∧
    Trace.outputs (step lonely none) enteredMiddle (thereAndBack 10) =
      [some ⟨65535, 33098, true⟩, some ⟨65535, 33098, true⟩] ∧
    ¬∀ m a, m ++ [a] <+: thereAndBack 10 → ∀ input,
      (step lonely none (after lonely none enteredMiddle m) a).2 = some input →
        Follows lonelyScreen (after lonely none enteredMiddle (m ++ [a])).remote.tracker input := by
  refine ⟨enteredMiddle_entered, by decide, by decide, fun h => ?_⟩
  obtain ⟨x, y, hcursor, hinput⟩ := h [⟨⟨1, .mouseMove 100 0⟩, ⟨none, false, none⟩⟩]
    ⟨⟨2, .mouseMove (-10) 0⟩, ⟨none, false, none⟩⟩ (by rfl) ⟨65535, 33098, true⟩ (by decide)
  have hat : (x, y) = (89, 50) := by
    refine Option.some.inj (hcursor.symm.trans ?_)
    decide
  obtain ⟨rfl, rfl⟩ := Prod.mk.inj hat
  exact absurd hinput (by decide)

end AbsoluteReceiver

end TheKvm

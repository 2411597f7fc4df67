import TheKvm.Core.Event
import TheKvm.Lib.Held
import TheKvm.Lib.Trace

/-!
The low-level hooks of the Windows capture.

A hook sees each key and button transition before the local system does. It sends it to the
controller, and while local input is blocked it swallows it; what it does not swallow goes on
to the local system.
-/

namespace TheKvm.WinHooks

/-! ### The hooks -/

/-- `hid_from_scan_code`. -/
def hidFromScanCode (scanCode : UInt16) (extended : Bool) : Option HidUsage :=
  if extended then
    match scanCode.toNat with
    | 0x1c => some 0x58 | 0x1d => some 0xe4 | 0x35 => some 0x54
    | 0x37 => some 0x46 | 0x38 => some 0xe6 | 0x47 => some 0x4a
    | 0x48 => some 0x52 | 0x49 => some 0x4b | 0x4b => some 0x50
    | 0x4d => some 0x4f | 0x4f => some 0x4d | 0x50 => some 0x51
    | 0x51 => some 0x4e | 0x52 => some 0x49 | 0x53 => some 0x4c
    | 0x5b => some 0xe3 | 0x5c => some 0xe7 | 0x5d => some 0x65
    | _ => none
  else if 0x3b ≤ scanCode ∧ scanCode ≤ 0x44 then
    some (0x3a + (scanCode - 0x3b))
  else
    match scanCode.toNat with
    | 0x02 => some 0x1e | 0x03 => some 0x1f | 0x04 => some 0x20
    | 0x05 => some 0x21 | 0x06 => some 0x22 | 0x07 => some 0x23
    | 0x08 => some 0x24 | 0x09 => some 0x25 | 0x0a => some 0x26
    | 0x0b => some 0x27 | 0x0c => some 0x2d | 0x0d => some 0x2e
    | 0x0e => some 0x2a | 0x0f => some 0x2b | 0x10 => some 0x14
    | 0x11 => some 0x1a | 0x12 => some 0x08 | 0x13 => some 0x15
    | 0x14 => some 0x17 | 0x15 => some 0x1c | 0x16 => some 0x18
    | 0x17 => some 0x0c | 0x18 => some 0x12 | 0x19 => some 0x13
    | 0x1a => some 0x2f | 0x1b => some 0x30 | 0x1c => some 0x28
    | 0x1d => some 0xe0 | 0x1e => some 0x04 | 0x1f => some 0x16
    | 0x20 => some 0x07 | 0x21 => some 0x09 | 0x22 => some 0x0a
    | 0x23 => some 0x0b | 0x24 => some 0x0d | 0x25 => some 0x0e
    | 0x26 => some 0x0f | 0x27 => some 0x33 | 0x28 => some 0x34
    | 0x29 => some 0x35 | 0x2a => some 0xe1 | 0x2b => some 0x31
    | 0x2c => some 0x1d | 0x2d => some 0x1b | 0x2e => some 0x06
    | 0x2f => some 0x19 | 0x30 => some 0x05 | 0x31 => some 0x11
    | 0x32 => some 0x10 | 0x33 => some 0x36 | 0x34 => some 0x37
    | 0x35 => some 0x38 | 0x36 => some 0xe5 | 0x37 => some 0x46
    | 0x38 => some 0xe2 | 0x39 => some 0x2c | 0x3a => some 0x39
    | 0x45 => some 0x53 | 0x46 => some 0x47 | 0x57 => some 0x44
    | 0x58 => some 0x45
    | _ => none

/-- `hid_from_vk`. -/
def hidFromVk (vk : UInt16) : Option HidUsage :=
  if 0x41 ≤ vk ∧ vk ≤ 0x5a then some (0x04 + (vk - 0x41))
  else if 0x31 ≤ vk ∧ vk ≤ 0x39 then some (0x1e + (vk - 0x31))
  else if 0x61 ≤ vk ∧ vk ≤ 0x69 then some (0x59 + (vk - 0x61))
  else if 0x70 ≤ vk ∧ vk ≤ 0x7b then some (0x3a + (vk - 0x70))
  else if 0x7c ≤ vk ∧ vk ≤ 0x87 then some (0x68 + (vk - 0x7c))
  else
    match vk.toNat with
    | 0x30 => some 0x27 | 0x0d => some 0x28 | 0x1b => some 0x29
    | 0x08 => some 0x2a | 0x09 => some 0x2b | 0x20 => some 0x2c
    | 0xba => some 0x33 | 0xde => some 0x34 | 0xc0 => some 0x35
    | 0xdc => some 0x31 | 0xbb => some 0x2e | 0xbd => some 0x2d
    | 0xbc => some 0x36 | 0xbe => some 0x37 | 0xbf => some 0x38
    | 0x14 => some 0x39 | 0x13 => some 0x48 | 0x90 => some 0x53
    | 0x2c => some 0x46 | 0x60 => some 0x62 | 0x6a => some 0x55
    | 0x6b => some 0x57 | 0x6d => some 0x56 | 0x6e => some 0x63
    | 0x6f => some 0x54 | 0x25 => some 0x50 | 0x26 => some 0x52
    | 0x27 => some 0x4f | 0x28 => some 0x51 | 0xa0 => some 0xe1
    | 0xa1 => some 0xe5 | 0xa2 => some 0xe0 | 0xa3 => some 0xe4
    | 0xa4 => some 0xe2 | 0xa5 => some 0xe6 | 0x5b => some 0xe3
    | 0x5c => some 0xe7 | 0x5d => some 0x65 | 0xad => some 0x7f
    | 0xae => some 0x81 | 0xaf => some 0x80
    | _ => none

/-- `ECHO_TAG`, the mark on what the injector synthesizes itself. -/
def echoTag : UInt64 := 0x9e3779b97f4a7c15

def xbutton1 : UInt16 := 1
def xbutton2 : UInt16 := 2

/-- `WM_KEYDOWN`, `WM_SYSKEYDOWN`, `WM_KEYUP` and `WM_SYSKEYUP`. -/
inductive KeyMessage
  | keyDown | sysKeyDown | keyUp | sysKeyUp
  deriving DecidableEq

/-- `WM_LBUTTONDOWN`, `WM_LBUTTONUP` and so on. -/
inductive ButtonMessage
  | left (down : Bool)
  | right (down : Bool)
  | middle (down : Bool)
  | x (down : Bool)
  deriving DecidableEq

/-- `KBDLLHOOKSTRUCT`. -/
structure KeyInfo where
  vkCode : UInt32
  scanCode : UInt32
  flags : UInt32
  dwExtraInfo : UInt64
  deriving DecidableEq

/-- `MSLLHOOKSTRUCT`. -/
structure MouseInfo where
  mouseData : UInt32
  dwExtraInfo : UInt64
  deriving DecidableEq

def KeyInfo.extended (info : KeyInfo) : Bool := info.flags &&& 0x01 != 0

/-- What a hook does with a call: what it sends, whether it counts an own echo, and whether
it passes the call on (`CallNextHookEx`). -/
structure Verdict where
  sent : Option InputEvent
  inboundEcho : Bool
  passed : Bool
  deriving DecidableEq

def Verdict.pass : Verdict := ⟨none, false, true⟩

def KeyInfo.usage (info : KeyInfo) : Option HidUsage :=
  (hidFromScanCode info.scanCode.toUInt16 info.extended).or (hidFromVk info.vkCode.toUInt16)

def KeyMessage.pressed : KeyMessage → Bool
  | .keyDown | .sysKeyDown => true
  | .keyUp | .sysKeyUp => false

/-- `keyboard_hook`. -/
def keyboardHook (blockLocal : Bool) (message : KeyMessage) (info : KeyInfo) : Verdict :=
  if info.dwExtraInfo ≠ echoTag then
    match info.usage with
    | some usage => ⟨some (.key ⟨usage, message.pressed, false⟩), false, !blockLocal⟩
    | none => Verdict.pass
  else ⟨none, true, true⟩

/-- `mouse_hook`, the arms of the buttons. -/
def mouseHook (blockLocal : Bool) (message : ButtonMessage) (info : MouseInfo) : Verdict :=
  if info.dwExtraInfo ≠ echoTag then
    match message with
    | .left down => ⟨some (.mouseButton .left down), false, !blockLocal⟩
    | .right down => ⟨some (.mouseButton .right down), false, !blockLocal⟩
    | .middle down => ⟨some (.mouseButton .middle down), false, !blockLocal⟩
    | .x down =>
      let data := (info.mouseData >>> 16).toUInt16
      if data = xbutton1 then ⟨some (.mouseButton .back down), false, !blockLocal⟩
      else if data = xbutton2 then ⟨some (.mouseButton .forward down), false, !blockLocal⟩
      else Verdict.pass
  else ⟨none, true, true⟩

/-! ### The local system -/

/-- A key or button, as the local system tells them apart. -/
inductive Control
  | key (vkCode scanCode : UInt32) (extended : Bool)
  | left
  | right
  | middle
  | x (data : UInt16)
  deriving DecidableEq

inductive HookCall
  | keyboard (message : KeyMessage) (info : KeyInfo)
  | mouse (message : ButtonMessage) (info : MouseInfo)
  deriving DecidableEq

/-- The control a call is about, and whether it is pressed. -/
def HookCall.transition : HookCall → Control × Bool
  | .keyboard message info => (.key info.vkCode info.scanCode info.extended, message.pressed)
  | .mouse (.left down) _ => (.left, down)
  | .mouse (.right down) _ => (.right, down)
  | .mouse (.middle down) _ => (.middle, down)
  | .mouse (.x down) info => (.x (info.mouseData >>> 16).toUInt16, down)

def HookCall.verdict (blockLocal : Bool) : HookCall → Verdict
  | .keyboard message info => keyboardHook blockLocal message info
  | .mouse message info => mouseHook blockLocal message info

/-- The hooks' flag, what is held on the machine's own devices, and what the local system
takes to be held. -/
structure Desktop where
  blockLocal : Bool
  physical : Finset Control
  localHeld : Finset Control
  deriving DecidableEq

inductive Op
  | hook (call : HookCall)
  | setExclusive (exclusive : Bool)
  deriving DecidableEq

def Desktop.step (s : Desktop) : Op → Desktop × Option Verdict
  | .hook call =>
    let verdict := call.verdict s.blockLocal
    ({ s with
        physical := Held.turn s.physical call.transition
        localHeld :=
          if verdict.passed then Held.turn s.localHeld call.transition else s.localHeld },
      some verdict)
  | .setExclusive exclusive => ({ s with blockLocal := exclusive }, none)

def start : Desktop := ⟨false, ∅, ∅⟩

/-- The desktop behind the steps of a run. -/
abbrev after (ops : List Op) : Desktop := Trace.final Desktop.step start ops

/-! ### What is swallowed -/

/-- Neither a call of the injector's own nor one of a control the controller has no name for. -/
def HookCall.Captured : HookCall → Prop
  | .keyboard _ info => info.dwExtraInfo ≠ echoTag ∧ info.usage.isSome
  | .mouse (.x _) info =>
    info.dwExtraInfo ≠ echoTag ∧
      ((info.mouseData >>> 16).toUInt16 = xbutton1 ∨ (info.mouseData >>> 16).toUInt16 = xbutton2)
  | .mouse _ info => info.dwExtraInfo ≠ echoTag

/-- The call is swallowed, were it to come now. -/
def Swallowed (ops : List Op) (call : HookCall) : Prop :=
  (after ops).blockLocal = true ∧ call.Captured

lemma passed_keyboard {b : Bool} {message : KeyMessage} {info : KeyInfo} :
    (keyboardHook b message info).passed = true ↔
      ¬(b = true ∧ HookCall.Captured (.keyboard message info)) := by
  unfold keyboardHook HookCall.Captured
  by_cases htag : info.dwExtraInfo = echoTag
  · simp [htag]
  · rcases husage : info.usage with _ | usage <;> simp [htag, husage, Verdict.pass]

lemma passed_mouse {b : Bool} {message : ButtonMessage} {info : MouseInfo} :
    (mouseHook b message info).passed = true ↔
      ¬(b = true ∧ HookCall.Captured (.mouse message info)) := by
  unfold mouseHook HookCall.Captured
  by_cases htag : info.dwExtraInfo = echoTag
  · cases message <;> simp [htag]
  · cases message with
    | x down =>
      simp only [ne_eq, htag, not_false_eq_true, if_true]
      split_ifs with h₁ h₂ <;> simp [Verdict.pass, *]
    | _ => simp [htag]

/-- A call goes on to the local system unless input is blocked and the hooks capture it. -/
lemma passed_iff {ops : List Op} {call : HookCall} :
    (call.verdict (after ops).blockLocal).passed = true ↔ ¬Swallowed ops call := by
  cases call with
  | keyboard => exact passed_keyboard
  | mouse => exact passed_mouse

lemma physical_hook {ops : List Op} {call : HookCall} :
    (after (ops ++ [.hook call])).physical = Held.turn (after ops).physical call.transition := by
  rw [after, Trace.final_snoc]
  rfl

lemma localHeld_hook {ops : List Op} {call : HookCall} [Decidable (Swallowed ops call)] :
    (after (ops ++ [.hook call])).localHeld =
      if Swallowed ops call then (after ops).localHeld
      else Held.turn (after ops).localHeld call.transition := by
  rw [after, Trace.final_snoc]
  by_cases h : Swallowed ops call
  · rw [if_pos h]
    exact if_neg (mt passed_iff.mp (not_not.mpr h))
  · rw [if_neg h]
    exact if_pos (passed_iff.mpr h)

lemma held_setExclusive {ops : List Op} {exclusive : Bool} :
    (after (ops ++ [.setExclusive exclusive])).physical = (after ops).physical ∧
      (after (ops ++ [.setExclusive exclusive])).localHeld = (after ops).localHeld := by
  rw [after, Trace.final_snoc]
  exact ⟨rfl, rfl⟩

/-! ### Presses that got through -/

def Op.Releases (c : Control) (op : Op) : Prop :=
  ∃ call, op = .hook call ∧ call.transition = (c, false)

/-- A press of `c` came that was not swallowed, and no release of it since. -/
def GotThrough (c : Control) (ops : List Op) : Prop :=
  ∃ l call r, ops = l ++ .hook call :: r ∧ call.transition = (c, true) ∧ ¬Swallowed l call ∧
    ∀ op ∈ r, ¬op.Releases c

lemma not_gotThrough_nil {c : Control} : ¬GotThrough c [] := by
  rintro ⟨l, call, r, h, -⟩
  exact absurd h (by simp)

lemma gotThrough_snoc {c : Control} {ops : List Op} {op : Op} :
    GotThrough c (ops ++ [op]) ↔
      (∃ call, op = .hook call ∧ call.transition = (c, true) ∧ ¬Swallowed ops call) ∨
        GotThrough c ops ∧ ¬op.Releases c := by
  constructor
  · rintro ⟨l, call, r, h, hpress, hthrough, hr⟩
    rcases List.eq_nil_or_concat r with rfl | ⟨r, y, rfl⟩
    · obtain ⟨rfl, hlast⟩ := List.append_inj' h rfl
      exact Or.inl ⟨call, List.singleton_inj.mp hlast, hpress, hthrough⟩
    · have hsplit : ops ++ [op] = (l ++ .hook call :: r) ++ [y] := by
        rw [h, List.append_assoc, List.concat_eq_append, List.cons_append]
      obtain ⟨rfl, hlast⟩ := List.append_inj' hsplit rfl
      obtain rfl := List.singleton_inj.mp hlast
      rw [List.concat_eq_append] at hr
      refine Or.inr ⟨⟨l, call, r, rfl, hpress, hthrough, fun z hz => ?_⟩, ?_⟩
      · exact hr z (List.mem_append_left _ hz)
      · exact hr op (List.mem_append_right _ List.mem_cons_self)
  · rintro (⟨call, rfl, hpress, hthrough⟩ | ⟨⟨l, call, r, rfl, hpress, hthrough, hr⟩, hop⟩)
    · exact ⟨ops, call, [], rfl, hpress, hthrough, fun z hz => absurd hz List.not_mem_nil⟩
    · refine ⟨l, call, r ++ [op], by simp, hpress, hthrough, fun z hz => ?_⟩
      rcases List.mem_append.mp hz with hz | hz
      · exact hr z hz
      · obtain rfl := List.mem_singleton.mp hz
        exact hop

lemma releases_hook {c d : Control} {on : Bool} {call : HookCall} (h : call.transition = (d, on)) :
    (Op.hook call).Releases c ↔ d = c ∧ on = false := by
  constructor
  · rintro ⟨call', heq, hrelease⟩
    obtain rfl := Op.hook.inj heq
    exact Prod.mk.inj (h.symm.trans hrelease)
  · rintro ⟨rfl, rfl⟩
    exact ⟨call, rfl, h⟩

lemma gotThrough_setExclusive {c : Control} {ops : List Op} {exclusive : Bool} :
    GotThrough c (ops ++ [.setExclusive exclusive]) ↔ GotThrough c ops := by
  simp [gotThrough_snoc, Op.Releases]

/-- A swallowed transition is a press that does not get through, or a release. -/
lemma gotThrough_swallowed {c d : Control} {on : Bool} {ops : List Op} {call : HookCall}
    (h : call.transition = (d, on)) (hs : Swallowed ops call) :
    GotThrough c (ops ++ [.hook call]) ↔ GotThrough c ops ∧ ¬(d = c ∧ on = false) := by
  rw [gotThrough_snoc, releases_hook h]
  refine or_iff_right ?_
  rintro ⟨call', heq, -, hthrough⟩
  obtain rfl := Op.hook.inj heq
  exact hthrough hs

lemma gotThrough_passed {c d : Control} {on : Bool} {ops : List Op} {call : HookCall}
    (h : call.transition = (d, on)) (hs : ¬Swallowed ops call) :
    GotThrough c (ops ++ [.hook call]) ↔
      c = d ∧ on = true ∨ c ≠ d ∧ GotThrough c ops := by
  rw [gotThrough_snoc, releases_hook h]
  constructor
  · rintro (⟨call', heq, hpress, -⟩ | ⟨hgot, hrelease⟩)
    · obtain rfl := Op.hook.inj heq
      obtain ⟨rfl, rfl⟩ := Prod.mk.inj (h.symm.trans hpress)
      exact Or.inl ⟨rfl, rfl⟩
    · rcases eq_or_ne c d with rfl | hne
      · exact Or.inl ⟨rfl, by simpa using hrelease⟩
      · exact Or.inr ⟨hne, hgot⟩
  · rintro (⟨rfl, rfl⟩ | ⟨hne, hgot⟩)
    · exact Or.inl ⟨call, rfl, h, hs⟩
    · exact Or.inr ⟨hgot, fun hrelease => hne hrelease.1.symm⟩

/-- What got through is held, on the devices and for the local system. -/
lemma GotThrough.held {c : Control} {ops : List Op} (h : GotThrough c ops) :
    c ∈ (after ops).physical ∧ c ∈ (after ops).localHeld := by
  classical
  induction ops using List.reverseRecOn with
  | nil => exact absurd h not_gotThrough_nil
  | append_singleton ops op ih =>
    cases op with
    | setExclusive exclusive =>
      rw [held_setExclusive.1, held_setExclusive.2]
      exact ih (gotThrough_setExclusive.mp h)
    | hook call =>
      rcases hcall : call.transition with ⟨d, on⟩
      rw [physical_hook, localHeld_hook, hcall]
      by_cases hs : Swallowed ops call
      · obtain ⟨hgot, hrelease⟩ := (gotThrough_swallowed hcall hs).mp h
        refine ⟨Held.mem_turn.mpr ?_, by rw [if_pos hs]; exact (ih hgot).2⟩
        rcases eq_or_ne c d with rfl | hne
        · exact Or.inl ⟨rfl, by simpa using hrelease⟩
        · exact Or.inr ⟨hne, (ih hgot).1⟩
      · rw [if_neg hs, Held.mem_turn, Held.mem_turn]
        have hgot := (gotThrough_passed hcall hs).mp h
        exact ⟨hgot.imp_right fun hg => ⟨hg.1, (ih hg.2).1⟩,
          hgot.imp_right fun hg => ⟨hg.1, (ih hg.2).2⟩⟩

/-- A release is swallowed of which the press got through. -/
def CutsOff (ops : List Op) (op : Op) : Prop :=
  ∃ call c, op = .hook call ∧ call.transition = (c, false) ∧ Swallowed ops call ∧
    GotThrough c ops

/-- Where no step cuts a control off, the local system holds what got through. -/
lemma gotThrough_of_localHeld {c : Control} {ops : List Op}
    (hcond : Trace.Each (fun before op => ¬CutsOff before op) ops)
    (h : c ∈ (after ops).localHeld) : GotThrough c ops := by
  classical
  induction ops using List.reverseRecOn with
  | nil => exact absurd h (Finset.notMem_empty c)
  | append_singleton ops op ih =>
    obtain ⟨hbefore, hop⟩ := Trace.each_snoc.mp hcond
    cases op with
    | setExclusive exclusive =>
      rw [held_setExclusive.2] at h
      exact gotThrough_setExclusive.mpr (ih hbefore h)
    | hook call =>
      rcases hcall : call.transition with ⟨d, on⟩
      rw [localHeld_hook, hcall] at h
      by_cases hs : Swallowed ops call
      · rw [if_pos hs] at h
        have hgot := ih hbefore h
        refine (gotThrough_swallowed hcall hs).mpr ⟨hgot, ?_⟩
        rintro ⟨rfl, rfl⟩
        exact hop ⟨call, d, rfl, hcall, hs, hgot⟩
      · rw [if_neg hs, Held.mem_turn] at h
        exact (gotThrough_passed hcall hs).mpr (h.imp_right fun hc => ⟨hc.1, ih hbefore hc.2⟩)

/-- **No key is left stuck.** Along a run the local system holds nothing that is not held on
the machine's devices, exactly if suppression never swallows a release of which the press got
through. -/
theorem none_stuck_iff (ops : List Op) :
    (∀ before, before <+: ops → (after before).localHeld ⊆ (after before).physical) ↔
      Trace.Each (fun before op => ¬CutsOff before op) ops := by
  classical
  refine (Trace.each_iff (fun c hc => hc) fun m op _ hcond _ => ⟨?_, fun hop c hc => ?_⟩).symm
  · rintro hsub ⟨call, c, rfl, hcall, hs, hgot⟩
    have hheld : c ∈ (after (m ++ [.hook call])).localHeld := by
      rw [localHeld_hook, if_pos hs]
      exact hgot.held.2
    have hphysical := hsub hheld
    rw [physical_hook, hcall, Held.turn_release] at hphysical
    exact Finset.notMem_erase c _ hphysical
  · exact (gotThrough_of_localHeld (Trace.each_snoc.mpr ⟨hcond, hop⟩) hc).held.1

def keyA : KeyInfo := ⟨0x41, 0x1e, 0, 0⟩

/-- A key that is down when suppression starts. -/
def heldAcross : List Op :=
  [.hook (.keyboard .keyDown keyA), .setExclusive true, .hook (.keyboard .keyUp keyA)]

theorem heldAcross_stuck :
    (after heldAcross).physical = ∅ ∧
      Control.key 0x41 0x1e false ∈ (after heldAcross).localHeld := by
  decide

end TheKvm.WinHooks

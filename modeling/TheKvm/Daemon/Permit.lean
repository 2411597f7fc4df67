import TheKvm.Daemon.Episode
import TheKvm.Lib.Slot
import TheKvm.Lib.Trace

/-!
The single-driver slot among the inbound episodes of one daemon.

A handoff, a datagram and UDP motion take the slot before anything is injected. A state sync and
an input frame on the stream or the lane do not look at it.
-/

namespace TheKvm

/-! ### What a frame passes on -/

namespace Episode

/-- An input frame reaches the injector. -/
def Passes (env : EpisodeEnv) (e : Episode) (packet : InputPacket) : Prop :=
  if packet.event.isPinch then
    (handleInboundPinch env.pinch e.held e.pinchHeld packet.event).1 ≠ []
  else e.input.Admits env.config env.os e.peerScreenGeometry packet

end Episode

/-- Some call passes input on. -/
def Drives (calls : List InjectorCall) : Prop := ∃ call ∈ calls, call.drives = true

@[simp] lemma drives_nil : ¬Drives [] := by simp [Drives]

@[simp] lemma drives_send (event : InputEvent) (calls : List InjectorCall) :
    Drives (.send event :: calls) := ⟨_, List.mem_cons_self, rfl⟩

lemma drives_release (calls : List InjectorCall) :
    Drives (calls ++ [.releaseAll]) ↔ Drives calls := by
  simp [Drives, or_and_right, exists_or, InjectorCall.drives]

namespace Episode

lemma drives_processPacket (env : EpisodeEnv) (e : Episode) (packet : InputPacket) :
    Drives (e.processPacket env packet).calls ↔
      e.input.Admits env.config env.os e.peerScreenGeometry packet := by
  simp only [Drives, processPacket_calls]
  constructor
  · rintro ⟨call, ⟨hadmits, -⟩, -⟩
    exact hadmits
  · intro hadmits
    exact ⟨_, ⟨hadmits, rfl⟩, rfl⟩

/-- Every call of a pinch passes input on. -/
lemma drives_handleInboundPinch (rendering : PinchRendering) (held : Held) (pinchHeld : Bool)
    (event : InputEvent) :
    Drives (handleInboundPinch rendering held pinchHeld event).1 ↔
      (handleInboundPinch rendering held pinchHeld event).1 ≠ [] := by
  have hall : ∀ call ∈ (handleInboundPinch rendering held pinchHeld event).1,
      call.drives = true := by
    simp only [handleInboundPinch]
    split <;> simp [InjectorCall.drives]
  constructor
  · rintro ⟨call, hcall, -⟩ hnil
    rw [hnil] at hcall
    cases hcall
  · intro hne
    obtain ⟨call, hcall⟩ := List.exists_mem_of_ne_nil _ hne
    exact ⟨call, hcall, hall call hcall⟩

lemma drives_processPinch (env : EpisodeEnv) (e : Episode) (event : InputEvent) :
    Drives (e.processPinch env event).calls ↔
      (handleInboundPinch env.pinch e.held e.pinchHeld event).1 ≠ [] := by
  rw [← drives_handleInboundPinch, processPinch]
  rcases env.injector <;> exact Iff.rfl

lemma drives_processInput (env : EpisodeEnv) (e : Episode) (packet : InputPacket) :
    Drives (e.processInput env packet).calls ↔ e.Passes env packet := by
  rw [processInput, Passes]
  split
  · exact drives_processPinch env e packet.event
  · exact drives_processPacket env e packet

end Episode

/-! ### The slot -/

namespace Episode

/-- What a session and the slot are after a frame: nothing changed hands, or the session took
the slot, or it gave up what it had. -/
inductive Turn (e : Episode) (free : Bool) : Bool → Episode → Prop
  | kept {e' : Episode} (same : e'.inputPermit = e.inputPermit) : Turn e free free e'
  | took {e' : Episode} (was : free = true) (has : e'.inputPermit = true) : Turn e free false e'
  | gave {e' : Episode} (without : e'.inputPermit = false) :
    Turn e free (free || e.inputPermit) e'

/-- A session that gets past the slot has it. -/
lemma turn_claim {e e' : Episode} {free free' : Bool} (h : e.claim free = (free', some e'))
    {e'' : Episode} (hhas : e''.inputPermit = true) : e.Turn free free' e'' := by
  obtain ⟨hslot, rfl, -⟩ := claim_some h
  rcases hpermit : e.inputPermit
  · rw [hpermit, Bool.false_or] at hslot
    exact .took hslot hhas
  · exact .kept (hhas.trans hpermit.symm)

lemma not_drives_enter (env : EpisodeEnv) (e : Episode) (screenId : UInt32) (targetName : String)
    (x y : UInt32) (screenGeometry : Option ScreenGeometry) :
    ¬Drives (e.enter env screenId targetName x y screenGeometry).calls := by
  rintro ⟨call, hcall, hdrives⟩
  obtain ⟨x, y, rfl⟩ := e.enter_calls env hcall
  cases hdrives

/-- A packet off the stream and the lane passes on what it does behind the slot. -/
lemma handlePacket_spec (env : EpisodeEnv) (e : Episode) (free : Bool) (packet : InputPacket) :
    (Drives (e.handlePacket env free packet).2.calls →
        (e.handlePacket env free packet).2.episode.inputPermit = true) ∧
      e.Turn free (e.handlePacket env free packet).1
        (e.handlePacket env free packet).2.episode := by
  rw [handlePacket]
  split
  · exact ⟨fun h => absurd h (by simp [ignore]), .kept rfl⟩
  rcases hclaim : e.claim free with ⟨free', _ | e'⟩
  · obtain rfl := (claim_none hclaim).2
    exact ⟨fun h => absurd h (by simp [ignore]), .kept rfl⟩
  · have hpermit : e'.inputPermit = true := by rw [(claim_some hclaim).2.2]
    have hhas := (e'.processPacket_sameTurn env packet).permit.trans hpermit
    exact ⟨fun _ => hhas, turn_claim hclaim hhas⟩

/-- What arrives passes input on and no slot is looked at. -/
def Unguarded (env : EpisodeEnv) (e : Episode) : EpisodeArm → Prop
  | .stream (.stateSync state) => syncState state = .ok () ∧ state.presses ≠ []
  | .stream (.input packet) => e.Passes env packet
  | .lane (.input packet) => e.remoteIdle = false ∧ e.Passes env packet
  | _ => False

lemma drives_sync (state : InputState) :
    Drives (.releaseAll :: state.presses) ↔ state.presses ≠ [] := by
  have hall : ∀ call ∈ state.presses, call.drives = true := by
    intro call hcall
    simp only [InputState.presses, List.mem_append, List.mem_map] at hcall
    rcases hcall with ⟨usage, -, rfl⟩ | ⟨button, -, rfl⟩ <;> rfl
  constructor
  · rintro ⟨call, hcall, hdrives⟩ hnil
    rw [hnil, List.mem_singleton] at hcall
    rw [hcall] at hdrives
    cases hdrives
  · intro hne
    obtain ⟨call, hcall⟩ := List.exists_mem_of_ne_nil _ hne
    exact ⟨call, List.mem_cons_of_mem _ hcall, hall call hcall⟩

/-- A frame of the stream, as for the slot. -/
lemma handleStream_spec (env : EpisodeEnv) (e : Episode) (free : Bool) (message : WireMessage) :
    e.Turn free (e.handleStream env free message).1 (e.handleStream env free message).2.episode ∧
      (Drives (e.handleStream env free message).2.calls ↔
        e.Unguarded env (.stream message)) ∧
      (e.Unguarded env (.stream message) →
        (e.handleStream env free message).2.episode.inputPermit = e.inputPermit) := by
  cases message with
  | stateSync state =>
    simp only [handleStream, Unguarded]
    rcases syncState state with error | ⟨⟨⟩⟩
    · exact ⟨.kept rfl, by simp, fun _ => rfl⟩
    · simp only [true_and]
      rcases env.injector
      · exact ⟨.kept rfl, drives_sync state, fun _ => rfl⟩
      · exact ⟨.kept rfl, drives_sync state, fun _ => rfl⟩
      · exact ⟨.kept rfl, drives_sync state, fun _ => rfl⟩
  | input packet =>
    have hsame := (processInput_sameTurn env { e with remoteIdle := false } packet).permit
    exact ⟨.kept hsame, drives_processInput env { e with remoteIdle := false } packet,
      fun _ => hsame⟩
  | pointerHandoff screenId targetName x y screenGeometry =>
    simp only [handleStream, Unguarded]
    rcases hclaim : ({ e with remoteIdle := false } : Episode).claim free with ⟨free', _ | e'⟩
    · obtain rfl := (claim_none hclaim).2
      exact ⟨.kept rfl, by simp, False.elim⟩
    · have hpermit : e'.inputPermit = true := by rw [(claim_some hclaim).2.2]
      have hquiet := not_drives_enter env e' screenId targetName x y screenGeometry
      have hsame := (e'.enter_sameTurn env screenId targetName x y screenGeometry).permit
      refine ⟨?_, iff_of_false hquiet id, False.elim⟩
      cases turn_claim hclaim (hsame.trans hpermit) with
      | kept same => exact .kept same
      | took was has => exact .took was has
      | gave without => exact .gave without
  | releaseAll =>
    simp only [handleStream, Unguarded]
    rcases env.injector
    · exact ⟨.gave rfl, by simp [Drives, InjectorCall.drives], False.elim⟩
    · exact ⟨.kept rfl, by simp [Drives, InjectorCall.drives], False.elim⟩
    · exact ⟨.kept rfl, by simp [Drives, InjectorCall.drives], False.elim⟩
  | _ => exact ⟨.kept rfl, by simp [handleStream, ignore, Unguarded], fun _ => rfl⟩

/-- **One frame**: the slot has at most changed hands, and what is passed on is passed on with
the slot, unless the frame is one that does not look at it. -/
lemma handle_spec (env : EpisodeEnv) (e : Episode) (free : Bool) (arm : EpisodeArm) :
    e.Turn free (e.handle env free arm).1 (e.handle env free arm).2.episode ∧
      ((Drives (e.handle env free arm).2.calls →
          (e.handle env free arm).2.episode.inputPermit = true) ↔
        (e.Unguarded env arm → e.inputPermit = true)) := by
  cases arm with
  | stream message =>
    obtain ⟨hturn, hdrives, hsame⟩ := handleStream_spec env e free message
    refine ⟨hturn, ?_⟩
    rw [handle, hdrives]
    exact forall_congr' fun hunguarded => by rw [hsame hunguarded]
  | datagram packet =>
    obtain ⟨hpermit, hturn⟩ := handlePacket_spec env e free packet
    exact ⟨hturn, iff_of_true hpermit False.elim⟩
  | udp sequence dx dy =>
    obtain ⟨hpermit, hturn⟩ := handlePacket_spec env e free ⟨sequence, .mouseMove dx dy⟩
    exact ⟨hturn, iff_of_true hpermit False.elim⟩
  | lane message =>
    cases message with
    | input packet =>
      have hdrives := drives_processInput env e packet
      have hsame := (e.processInput_sameTurn env packet).permit
      simp only [handle, handleLane, Unguarded]
      split
      next hidle => exact ⟨.kept rfl, by simp [ignore, hidle]⟩
      next hidle =>
        rw [Bool.not_eq_true] at hidle
        refine ⟨.kept hsame, ?_⟩
        rw [hdrives, hsame, hidle, and_iff_right rfl]
    | _ => exact ⟨.kept rfl, by simp [handle, handleLane, ignore, Unguarded]⟩
  | finish => exact ⟨.kept rfl, by simp [handle, Unguarded]⟩

end Episode

/-! ### All sessions of a daemon -/

/-- The sessions of a daemon and its slot. -/
structure InputNode where
  free : Bool
  sessions : ℕ → Option Episode

inductive NodeOp
  | accept (session : ℕ) (peerScreenGeometry : Option ScreenGeometry)
  | arrive (session : ℕ) (env : EpisodeEnv) (arm : EpisodeArm)

/-- The calls of one session while it handled a frame, and whether it had the slot then. -/
structure Injection where
  session : ℕ
  permit : Bool
  calls : List InjectorCall

namespace InputNode

def start : InputNode := ⟨true, fun _ => none⟩

def put (s : InputNode) (free : Bool) (session : ℕ) (e : Option Episode) : InputNode :=
  ⟨free, Function.update s.sessions session e⟩

/-- A session that ends lets go of what it holds, keys, buttons and the slot. -/
def step (s : InputNode) : NodeOp → InputNode × Option Injection
  | .accept session peerScreenGeometry =>
    match s.sessions session with
    | none => (s.put s.free session (some (.start peerScreenGeometry)), none)
    | some _ => (s, none)
  | .arrive session env arm =>
    match s.sessions session with
    | none => (s, none)
    | some e =>
      let (free, handled) := e.handle env s.free arm
      let permit := handled.episode.inputPermit
      match handled.next with
      | .continues =>
        (s.put free session (some handled.episode), some ⟨session, permit, handled.calls⟩)
      | .breaks =>
        (s.put (free || permit) session none,
          some ⟨session, permit, handled.calls ++ [.releaseAll]⟩)
      | .fails => (s.put (free || permit) session none, some ⟨session, permit, handled.calls⟩)

def after (ops : List NodeOp) : InputNode := Trace.final step start ops

def Holds (s : InputNode) (session : ℕ) : Prop :=
  ∃ e, s.sessions session = some e ∧ e.inputPermit = true

/-- A session that passes input on has the slot, and no other session has it. -/
def Exclusive (s : InputNode) (op : NodeOp) : Prop :=
  ∀ injection, (s.step op).2 = some injection → Drives injection.calls →
    injection.permit = true ∧ ∀ other, other ≠ injection.session → ¬s.Holds other

/-- What does not look at the slot arrives where the slot is held. -/
def Claimed (s : InputNode) : NodeOp → Prop
  | .accept _ _ => True
  | .arrive session env arm =>
    ∀ e, s.sessions session = some e → e.Unguarded env arm → e.inputPermit = true

variable {s : InputNode} {session : ℕ}

lemma holds_put (free : Bool) (e : Option Episode) :
    (s.put free session e).Holds session ↔ ∃ e', e = some e' ∧ e'.inputPermit = true := by
  simp only [Holds, put, Function.update_self]

lemma holds_put_ne (free : Bool) (e : Option Episode) {other : ℕ} (h : other ≠ session) :
    (s.put free session e).Holds other ↔ s.Holds other := by
  simp only [Holds, put, Function.update_of_ne h]

/-- The slot and its holder after a turn of a session. -/
lemma single_put (h : Slot.Single s.free s.Holds) {e e' : Episode} {free : Bool}
    (hs : s.sessions session = some e) (hturn : e.Turn s.free free e') :
    Slot.Single free (s.put free session (some e')).Holds := by
  have hother (free : Bool) (e'' : Option Episode) : ∀ other, other ≠ session →
      ((s.put free session e'').Holds other ↔ s.Holds other) :=
    fun other hne => holds_put_ne free e'' hne
  have hholds : s.Holds session ↔ e.inputPermit = true := by simp [Holds, hs]
  have hnew (free : Bool) :
      (s.put free session (some e')).Holds session ↔ e'.inputPermit = true := by
    simp [holds_put]
  cases hturn with
  | kept same =>
    refine h.keep fun other => ?_
    by_cases hne : other = session
    · rw [hne, hnew, hholds, same]
    · exact hother _ _ other hne
  | took was has =>
    rw [was] at h
    exact h.take ((hnew false).mpr has) (hother _ _)
  | gave without =>
    refine h.drop hholds.symm ?_ (hother _ _)
    rw [hnew, without]
    decide

lemma single_remove {free : Bool} {e : Episode}
    (h : Slot.Single free (s.put free session (some e)).Holds) :
    Slot.Single (free || e.inputPermit) (s.put (free || e.inputPermit) session none).Holds := by
  refine h.drop (i := session) (by simp [holds_put]) (by simp [holds_put]) fun other hne => ?_
  rw [holds_put_ne _ _ hne, holds_put_ne _ _ hne]

/-- The slot has one holder, or none. -/
lemma single_step (h : Slot.Single s.free s.Holds) (op : NodeOp) :
    Slot.Single (s.step op).1.free (s.step op).1.Holds := by
  cases op with
  | accept session peerScreenGeometry =>
    simp only [step]
    split
    next hnone =>
      refine h.keep fun other => ?_
      by_cases hne : other = session
      · rw [hne, holds_put]
        exact iff_of_false (by simp [Episode.start]) (by simp [Holds, hnone])
      · exact holds_put_ne _ _ hne
    next => exact h
  | arrive session env arm =>
    simp only [step]
    split
    next => exact h
    next e hs =>
      have hput := single_put h hs (e.handle_spec env s.free arm).1
      split
      · exact hput
      · exact single_remove hput
      · exact single_remove hput

/-- What a session passes on while it handles a frame. -/
lemma step_injection {e : Episode} (hs : s.sessions session = some e) (env : EpisodeEnv)
    (arm : EpisodeArm) :
    ∃ calls, (s.step (.arrive session env arm)).2 =
        some ⟨session, (e.handle env s.free arm).2.episode.inputPermit, calls⟩ ∧
      (Drives calls ↔ Drives (e.handle env s.free arm).2.calls) := by
  simp only [step, hs]
  split
  · exact ⟨_, rfl, Iff.rfl⟩
  · exact ⟨_, rfl, drives_release _⟩
  · exact ⟨_, rfl, Iff.rfl⟩

/-- A step is exclusive if and only if it is claimed. -/
lemma exclusive_iff (h : Slot.Single s.free s.Holds) (op : NodeOp) :
    s.Exclusive op ↔ s.Claimed op := by
  cases op with
  | accept session peerScreenGeometry =>
    refine iff_of_true (fun injection hinjection => ?_) trivial
    simp only [step] at hinjection
    split at hinjection <;> cases hinjection
  | arrive session env arm =>
    rcases hs : s.sessions session with _ | e
    · refine iff_of_true (fun injection hinjection => ?_) fun e he => ?_
      · simp only [step, hs] at hinjection
        cases hinjection
      · rw [hs] at he
        cases he
    obtain ⟨hturn, hpermit⟩ := e.handle_spec env s.free arm
    obtain ⟨calls, hinjection, hdrives⟩ := step_injection hs env arm
    have hput := single_put h hs hturn
    have hclaimed : s.Claimed (.arrive session env arm) ↔
        (e.Unguarded env arm → e.inputPermit = true) := by
      refine ⟨fun hall => hall e hs, fun hone e' he' => ?_⟩
      obtain rfl := Option.some.inj (he'.symm.trans hs)
      exact hone
    rw [hclaimed, ← hpermit, ← hdrives]
    constructor
    · intro hexclusive hcalls
      exact (hexclusive _ hinjection hcalls).1
    · intro hone injection heq hcalls
      obtain rfl := Option.some.inj (heq.symm.trans hinjection)
      refine ⟨hone hcalls, fun other hne hother => hne ?_⟩
      exact hput.unique ((holds_put_ne _ _ hne).mpr hother) (by simp [holds_put, hone hcalls])

/-! ### Runs -/

/-- **One driver at a time**, along exactly the runs in which state syncs that press something
and input frames of the stream and the lane only reach the injector of a session that has the
slot. -/
theorem exclusive_iff_claimed (ops : List NodeOp) :
    Trace.Each (fun past op => (after past).Exclusive op) ops ↔
      Trace.Each (fun past op => (after past).Claimed op) ops := by
  refine Trace.each_congr fun past op _ => exclusive_iff ?_ op
  refine Trace.always (I := fun _ (s : InputNode) => Slot.Single s.free s.Holds) ?_
    fun _ op hsingle => single_step hsingle op
  exact Slot.single_free.keep fun session => by simp [Holds, start]

/-- One peer drives over UDP, and a click of another comes through on its stream. -/
theorem busy_click_injected :
    ¬∀ ops : List NodeOp, Trace.Each (fun past op => (after past).Exclusive op) ops := by
  intro h
  let env : EpisodeEnv :=
    ⟨⟨"desk", ⟨[], none⟩, .double, .mirror⟩, ⟨none, true, none⟩, .wheel, .takes⟩
  have hclick := h [.accept 0 none, .accept 1 none, .arrive 0 env (.udp 1 5 0),
    .arrive 1 env (.stream (.input ⟨1, .mouseButton .left true⟩))]
  obtain ⟨-, hlast⟩ := Trace.each_snoc (l := [_, _, _]).mp hclick
  have hpermit := (hlast ⟨1, false, [.send (.mouseButton .left true)]⟩ rfl (drives_send _ _)).1
  cases hpermit

end InputNode

end TheKvm

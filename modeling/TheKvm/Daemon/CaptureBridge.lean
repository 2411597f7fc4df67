import TheKvm.Daemon.HelperPipe
import TheKvm.Lib.Trace

/-!
The bridge between a capture helper and the service.

The helper writes captured events one way, the service writes commands the other way. A write of
the helper and a read of either side may time out at any byte; both sides go on after that.
-/

namespace TheKvm

open Framing (Lane)
open HelperPipe

/-- One way of the bridge, with the frames that were written whole. -/
structure Pipe where
  lane : PipeLane
  written : List (List Stamped)
  /-- the reader is out of its loop -/
  ended : Bool

/-- `exclusive` is what the helper suppresses by. -/
structure CaptureBridge where
  events : Pipe
  commands : Pipe
  captured : List InputEvent
  commanded : List Bool
  exclusive : Bool

namespace Pipe

def empty : Pipe := ⟨⟨[], [], [], []⟩, [], false⟩

/-- A write that gets `sent` bytes of a frame through before it times out, if it does. -/
def write (p : Pipe) (frame : List Stamped) (sent : ℕ) : Pipe :=
  { p with
    lane := p.lane.send (frame.take sent)
    written := if frame.length ≤ sent then p.written ++ [frame] else p.written }

def arrive (p : Pipe) (n : ℕ) : Pipe := { p with lane := p.lane.arrive n }

/-- One go of a read. A length over the limit ends the reader. -/
def read (p : Pipe) : Pipe :=
  if p.ended then p
  else
    { p with
      lane := Prefixed.read Prod.fst maxIpcFrame p.lane
      ended := match HelperPipe.find p.lane with
        | .invalid _ => true
        | _ => false }

/-- A read that times out, and loses what it has taken. -/
def timeOut (p : Pipe) : Pipe := if p.ended then p else { p with lane := p.lane.giveUp }

end Pipe

namespace CaptureBridge

inductive Way
  | events | commands
  deriving DecidableEq

inductive Op
  | capture (event : InputEvent) (owns : Bool) (sent : ℕ)
  | setExclusive (enabled : Bool)
  | arrive (way : Way) (n : ℕ)
  | read (way : Way)
  | timeOut (way : Way)

variable (fromSlice : List UInt8 → Option HelperMessage)

def init : CaptureBridge := ⟨.empty, .empty, [], [], false⟩

def pipe (b : CaptureBridge) : Way → Pipe
  | .events => b.events
  | .commands => b.commands

/-- The event of a frame that the service's reader has read, if it is one. -/
def eventOf (read : List Stamped) : Option InputEvent :=
  match decode fromSlice read with
  | some (.input event) => some event
  | _ => none

/-- The command of a frame that the helper's reader has read, if it is one. -/
def commandOf (read : List Stamped) : Option Bool :=
  match decode fromSlice read with
  | some (.setExclusive enabled) => some enabled
  | _ => none

/-- What the service's reader has forwarded. -/
def forwarded (b : CaptureBridge) : List InputEvent :=
  b.events.lane.handled.filterMap (eventOf fromSlice)

/-- What the helper's reader has decoded. -/
def decoded (b : CaptureBridge) : List Bool :=
  b.commands.lane.handled.filterMap (commandOf fromSlice)

/-- An event is written if the helper's desktop receives the input; when the write stalls, the
helper stops to suppress. -/
def capture (b : CaptureBridge) (event : InputEvent) (owns : Bool) (sent : ℕ) : CaptureBridge :=
  let frame := ipcFrame b.captured.length (.input event)
  if owns then
    { b with
      captured := b.captured ++ [event]
      events := b.events.write frame sent
      exclusive := if frame.length ≤ sent then b.exclusive else false }
  else { b with captured := b.captured ++ [event] }

/-- `set_exclusive` writes its frame whole. -/
def setExclusive (b : CaptureBridge) (enabled : Bool) : CaptureBridge :=
  let frame := ipcFrame b.commanded.length (.setExclusive enabled)
  { b with
    commanded := b.commanded ++ [enabled]
    commands := b.commands.write frame frame.length }

def readCommand (b : CaptureBridge) : CaptureBridge :=
  let b' := { b with commands := b.commands.read }
  { b' with exclusive :=
      ((b'.decoded fromSlice).drop (b.decoded fromSlice).length).getLast?.getD b.exclusive }

def step (b : CaptureBridge) : Op → CaptureBridge
  | .capture event owns sent => b.capture event owns sent
  | .setExclusive enabled => b.setExclusive enabled
  | .arrive .events n => { b with events := b.events.arrive n }
  | .arrive .commands n => { b with commands := b.commands.arrive n }
  | .read .events => { b with events := b.events.read }
  | .read .commands => b.readCommand fromSlice
  | .timeOut .events => { b with events := b.events.timeOut }
  | .timeOut .commands => { b with commands := b.commands.timeOut }

/-- The bridge behind the steps of a run. -/
abbrev after (ops : List Op) : CaptureBridge :=
  Trace.final (fun b op => (step fromSlice b op, ())) init ops

/-- What is forwarded was captured, in order; what is decoded was commanded, in order, and once
all has been read it is everything that was commanded; no reader has ended, and none has read a
frame that was not written as it is. -/
structure Faithful (b : CaptureBridge) : Prop where
  forwarded : (b.forwarded fromSlice).Sublist b.captured
  decoded : b.decoded fromSlice <+: b.commanded
  caughtUp : b.commands.lane.unread = [] → b.decoded fromSlice = b.commanded
  going : ∀ way, (b.pipe way).ended = false
  unmixed : ∀ way, ∀ read ∈ (b.pipe way).lane.handled, read ∈ (b.pipe way).written

/-- `serde_json` reads back the messages of the run. -/
structure ReadsBack (b : CaptureBridge) : Prop where
  events : ∀ event ∈ b.captured,
    fromSlice (HelperMessage.input event).toJson.bytes = some (.input event)
  commands : ∀ enabled ∈ b.commanded,
    fromSlice (HelperMessage.setExclusive enabled).toJson.bytes = some (.setExclusive enabled)

/-- No write times out inside a frame, and no read. -/
def Unbroken (b : CaptureBridge) : Op → Prop
  | .capture event owns sent => owns = true → sent = 0 ∨
      (ipcFrame b.captured.length (.input event)).length ≤ sent
  | .timeOut way => (b.pipe way).ended = false → (b.pipe way).lane.taken = []
  | _ => True

instance (b : CaptureBridge) (op : Op) : Decidable (b.Unbroken op) :=
  match op with
  | .capture _ _ _ => inferInstanceAs (Decidable (_ → _))
  | .timeOut _ => inferInstanceAs (Decidable (_ → _))
  | .setExclusive _ => isTrue trivial
  | .arrive _ _ => isTrue trivial
  | .read _ => isTrue trivial

end CaptureBridge

/-! ### One pipe -/

namespace Pipe

/-- The reader goes on, and what is unread are frames written whole. -/
structure InStep (p : Pipe) : Prop where
  going : p.ended = false
  frames : ∀ f ∈ p.written, Prefixed.IsFrame Prod.fst maxIpcFrame f
  lane : p.lane.InStep id p.written

variable {p : Pipe}

lemma inStep_empty : InStep empty := ⟨rfl, (fun _ h => by cases h), [], rfl, rfl⟩

lemma InStep.write (h : p.InStep) {frame : List Stamped} {sent : ℕ}
    (hframe : Prefixed.IsFrame Prod.fst maxIpcFrame frame)
    (hsent : sent = 0 ∨ frame.length ≤ sent) : (p.write frame sent).InStep := by
  by_cases hwhole : frame.length ≤ sent
  · have hlane := h.lane.send frame
    unfold Pipe.write
    rw [if_pos hwhole, List.take_of_length_le hwhole]
    refine ⟨h.going, fun f hf => ?_, hlane⟩
    rcases List.mem_append.mp hf with hold | hnew
    · exact h.frames f hold
    · obtain rfl := List.mem_singleton.mp hnew
      exact hframe
  · obtain rfl := hsent.resolve_right hwhole
    unfold Pipe.write
    rw [if_neg hwhole]
    refine ⟨h.going, h.frames, ?_⟩
    have hsame : p.lane.send (frame.take 0) = p.lane := by
      rw [List.take_zero, Lane.send, List.append_nil]
    dsimp only
    rw [hsame]
    exact h.lane

lemma InStep.arrive (h : p.InStep) (n : ℕ) : (p.arrive n).InStep :=
  ⟨h.going, h.frames, h.lane.arrive n⟩

lemma InStep.read (h : p.InStep) : p.read.InStep := by
  have hread := Prefixed.inStep_read maxIpcFrame_lt h.frames h.lane
  unfold Pipe.read
  rw [h.going, if_neg Bool.false_ne_true]
  refine ⟨?_, h.frames, hread⟩
  dsimp only
  unfold HelperPipe.find
  rcases Prefixed.find_of_inStep maxIpcFrame_lt h.frames h.lane with hmore | ⟨f, -, rest, hwhole, -⟩
  · rw [hmore]
  · rw [hwhole]

lemma InStep.timeOut (h : p.InStep) (htaken : p.lane.taken = []) : p.timeOut.InStep := by
  have hgoing : ¬p.ended = true := by rw [h.going]; exact Bool.false_ne_true
  rw [Pipe.timeOut, if_neg hgoing]
  exact ⟨h.going, h.frames, h.lane.giveUp htaken⟩

end Pipe

/-! ### The bridge -/

namespace CaptureBridge

/-- Both pipes are in step, with the frames of events that were captured and of all commands. -/
structure Held (b : CaptureBridge) : Prop where
  inStep : ∀ way, (b.pipe way).InStep
  events : ∃ kept : List (ℕ × InputEvent), (kept.map (·.2)).Sublist b.captured ∧
    b.events.written = kept.map fun e => ipcFrame e.1 (.input e.2)
  commands : ∃ kept : List (ℕ × Bool), kept.map (·.2) = b.commanded ∧
    b.commands.written = kept.map fun e => ipcFrame e.1 (.setExclusive e.2)

variable {fromSlice : List UInt8 → Option HelperMessage} {b : CaptureBridge}

lemma held_init : Held init where
  inStep := fun way => by cases way <;> exact Pipe.inStep_empty
  events := ⟨[], List.Sublist.slnil, rfl⟩
  commands := ⟨[], rfl, rfl⟩

lemma Held.capture (h : Held b) (event : InputEvent) {owns : Bool} {sent : ℕ}
    (hsent : b.Unbroken (.capture event owns sent)) : Held (b.capture event owns sent) := by
  obtain ⟨kept, hkept, hwritten⟩ := h.events
  have hgrown : (kept.map (·.2)).Sublist (b.captured ++ [event]) :=
    hkept.trans (List.sublist_append_left _ _)
  cases owns with
  | false =>
    refine ⟨fun way => ?_, ⟨kept, hgrown, hwritten⟩, h.commands⟩
    cases way with
    | events => exact h.inStep .events
    | commands => exact h.inStep .commands
  | true =>
    have hstep := (h.inStep .events).write (isFrame_ipcFrame (fits_input event)) (hsent rfl)
    refine ⟨fun way => ?_, ?_, h.commands⟩
    · cases way with
      | events => exact hstep
      | commands => exact h.inStep .commands
    · by_cases hwhole : (ipcFrame b.captured.length (.input event)).length ≤ sent
      · have hnew : (b.capture event true sent).events.written =
            b.events.written ++ [ipcFrame b.captured.length (.input event)] := if_pos hwhole
        refine ⟨kept ++ [(b.captured.length, event)], ?_, ?_⟩
        · rw [List.map_append]
          exact hkept.append (List.Sublist.refl _)
        · rw [hnew, hwritten, List.map_append]
          rfl
      · have hold : (b.capture event true sent).events.written = b.events.written :=
          if_neg hwhole
        exact ⟨kept, hgrown, hold.trans hwritten⟩

lemma Held.setExclusive (h : Held b) (enabled : Bool) : Held (b.setExclusive enabled) := by
  obtain ⟨kept, hkept, hwritten⟩ := h.commands
  have hframe : Prefixed.IsFrame Prod.fst maxIpcFrame
      (ipcFrame b.commanded.length (.setExclusive enabled)) :=
    isFrame_ipcFrame (fits_setExclusive enabled)
  have hstep := (h.inStep .commands).write hframe (Or.inr le_rfl)
  refine ⟨fun way => ?_, h.events, kept ++ [(b.commanded.length, enabled)], ?_, ?_⟩
  · cases way with
    | events => exact h.inStep .events
    | commands => exact hstep
  · rw [List.map_append, hkept]
    rfl
  · have hwhole : (b.setExclusive enabled).commands.written =
        b.commands.written ++ [ipcFrame b.commanded.length (.setExclusive enabled)] :=
      if_pos le_rfl
    rw [hwhole, hwritten, List.map_append]
    rfl

/-- A step that changes one pipe, and keeps what was written to it. -/
lemma Held.of_pipes (h : Held b) {b' : CaptureBridge}
    (hevents : b'.events.InStep ∧ b'.events.written = b.events.written)
    (hcommands : b'.commands.InStep ∧ b'.commands.written = b.commands.written)
    (hcaptured : b'.captured = b.captured) (hcommanded : b'.commanded = b.commanded) :
    Held b' where
  inStep := fun way => by
    cases way with
    | events => exact hevents.1
    | commands => exact hcommands.1
  events := by rw [hevents.2, hcaptured]; exact h.events
  commands := by rw [hcommands.2, hcommanded]; exact h.commands

lemma written_read (p : Pipe) : p.read.written = p.written := by
  unfold Pipe.read
  split_ifs <;> rfl

lemma written_timeOut (p : Pipe) : p.timeOut.written = p.written := by
  unfold Pipe.timeOut
  split_ifs <;> rfl

lemma Held.step (h : Held b) {op : Op} (hop : b.Unbroken op) : Held (step fromSlice b op) := by
  have hevents := h.inStep .events
  have hcommands := h.inStep .commands
  cases op with
  | capture event owns sent => exact h.capture event hop
  | setExclusive enabled => exact h.setExclusive enabled
  | arrive way n =>
    cases way with
    | events => exact h.of_pipes ⟨hevents.arrive n, rfl⟩ ⟨hcommands, rfl⟩ rfl rfl
    | commands => exact h.of_pipes ⟨hevents, rfl⟩ ⟨hcommands.arrive n, rfl⟩ rfl rfl
  | read way =>
    cases way with
    | events => exact h.of_pipes ⟨hevents.read, written_read _⟩ ⟨hcommands, rfl⟩ rfl rfl
    | commands => exact h.of_pipes ⟨hevents, rfl⟩ ⟨hcommands.read, written_read _⟩ rfl rfl
  | timeOut way =>
    have htaken := hop (h.inStep way).going
    cases way with
    | events =>
      exact h.of_pipes ⟨hevents.timeOut htaken, written_timeOut _⟩ ⟨hcommands, rfl⟩ rfl rfl
    | commands =>
      exact h.of_pipes ⟨hevents, rfl⟩ ⟨hcommands.timeOut htaken, written_timeOut _⟩ rfl rfl

/-- Frames that are read back give their messages. -/
lemma filterMap_frames {α : Type} {message : α → HelperMessage} {kept : List (ℕ × α)}
    {read : List Stamped → Option α}
    (hread : ∀ e ∈ kept, read (ipcFrame e.1 (message e.2)) = some e.2) :
    (kept.map fun e => ipcFrame e.1 (message e.2)).filterMap read = kept.map (·.2) := by
  induction kept with
  | nil => rfl
  | cons e kept ih =>
    rw [List.map_cons, List.filterMap_cons_some (hread e List.mem_cons_self), List.map_cons,
      ih fun e' he' => hread e' (List.mem_cons_of_mem _ he')]

/-- What a pipe in step has handled are the first frames written to it. -/
lemma handled_of_written {α : Type} {frame : α → List Stamped} {kept : List α} {p : Pipe}
    (h : p.InStep) (hwritten : p.written = kept.map frame) :
    p.lane.handled = (kept.take p.lane.handled.length).map frame := by
  have hprefix := h.lane.inOrder
  rw [hwritten] at hprefix
  rw [List.map_take]
  exact List.prefix_iff_eq_take.mp hprefix

lemma eventOf_ipcFrame {number : ℕ} {event : InputEvent}
    (h : fromSlice (HelperMessage.input event).toJson.bytes = some (.input event)) :
    eventOf fromSlice (ipcFrame number (.input event)) = some event := by
  rw [eventOf, decode_ipcFrame h]

lemma commandOf_ipcFrame {number : ℕ} {enabled : Bool}
    (h : fromSlice (HelperMessage.setExclusive enabled).toJson.bytes =
      some (.setExclusive enabled)) :
    commandOf fromSlice (ipcFrame number (.setExclusive enabled)) = some enabled := by
  rw [commandOf, decode_ipcFrame h]

lemma Held.forwarded (h : Held b) (hreads : ReadsBack fromSlice b) :
    (b.forwarded fromSlice).Sublist b.captured := by
  obtain ⟨kept, hkept, hwritten⟩ := h.events
  have hread : ∀ e ∈ kept.take b.events.lane.handled.length,
      eventOf fromSlice (ipcFrame e.1 (.input e.2)) = some e.2 := by
    intro e he
    have hmem : e.2 ∈ b.captured :=
      hkept.subset (List.mem_map_of_mem (List.mem_of_mem_take he))
    exact eventOf_ipcFrame (hreads.events _ hmem)
  have hhandled : b.events.lane.handled =
      (kept.take b.events.lane.handled.length).map fun e => ipcFrame e.1 (.input e.2) :=
    handled_of_written (h.inStep .events) hwritten
  have hforwarded := filterMap_frames hread
  rw [← hhandled] at hforwarded
  rw [CaptureBridge.forwarded, hforwarded, List.map_take]
  exact (List.take_sublist _ _).trans hkept

/-- The commands decoded are the first ones, as many as frames were read. -/
lemma Held.decoded (h : Held b) (hreads : ReadsBack fromSlice b) :
    b.decoded fromSlice = b.commanded.take b.commands.lane.handled.length := by
  obtain ⟨kept, hkept, hwritten⟩ := h.commands
  have hread : ∀ e ∈ kept.take b.commands.lane.handled.length,
      commandOf fromSlice (ipcFrame e.1 (.setExclusive e.2)) = some e.2 := by
    intro e he
    have hmem : e.2 ∈ b.commanded := by
      rw [← hkept]
      exact List.mem_map_of_mem (List.mem_of_mem_take he)
    exact commandOf_ipcFrame (hreads.commands _ hmem)
  have hhandled : b.commands.lane.handled =
      (kept.take b.commands.lane.handled.length).map fun e => ipcFrame e.1 (.setExclusive e.2) :=
    handled_of_written (h.inStep .commands) hwritten
  have hdecoded := filterMap_frames hread
  rw [← hhandled] at hdecoded
  rw [CaptureBridge.decoded, hdecoded, List.map_take, hkept]

/-- With nothing unread, every frame written was handled. -/
lemma handled_of_unread {p : Pipe} (h : p.InStep) (hunread : p.lane.unread = []) :
    p.lane.handled = p.written := by
  obtain ⟨rest, hwritten, hrest⟩ := h.lane
  have hnil : rest = [] := by
    rw [hunread] at hrest
    cases rest with
    | nil => rfl
    | cons f rest =>
      obtain ⟨content, hmap, -⟩ := h.frames f (by rw [hwritten]; simp)
      have hempty : f = [] := (List.append_eq_nil_iff.mp hrest.symm).1
      have hlength := congrArg List.length hmap
      rw [hempty, Prefixed.length_frame, List.map_nil, List.length_nil] at hlength
      omega
  rw [hwritten, hnil, List.append_nil]

lemma Held.faithful (h : Held b) (hreads : ReadsBack fromSlice b) : Faithful fromSlice b where
  forwarded := h.forwarded hreads
  decoded := by
    rw [h.decoded hreads]
    exact List.take_prefix _ _
  caughtUp := by
    intro hunread
    obtain ⟨kept, hkept, hwritten⟩ := h.commands
    have hhandled : b.commands.lane.handled = b.commands.written :=
      handled_of_unread (h.inStep .commands) hunread
    have hlength : b.commanded.length = b.commands.lane.handled.length := by
      rw [hhandled, hwritten, ← hkept, List.length_map, List.length_map]
    rw [h.decoded hreads, ← hlength, List.take_length]
  going := fun way => (h.inStep way).going
  unmixed := fun way read hread => (h.inStep way).lane.inOrder.subset hread

/-- **The bridge is faithful in every run in which no write and no read times out inside a
frame.** -/
theorem faithful_of_unbroken (fromSlice : List UInt8 → Option HelperMessage) (ops : List Op)
    (hreads : ReadsBack fromSlice (after fromSlice ops))
    (h : Trace.Each (fun m op => (after fromSlice m).Unbroken op) ops) :
    Faithful fromSlice (after fromSlice ops) := by
  have hheld : Held (after fromSlice ops) :=
    Trace.invariant (I := fun _ b => Held b) (P := fun m op => (after fromSlice m).Unbroken op)
      held_init (fun _ _ hm hop => hm.step hop) h
  exact hheld.faithful hreads

/-- A command and an event go through, each in two pieces. -/
def quietBridge : List Op :=
  [.setExclusive true, .arrive .commands 9, .read .commands, .capture .pinchEnd true 100,
    .arrive .events 3, .timeOut .events, .read .events, .arrive .commands 100, .read .commands,
    .arrive .events 100, .read .events]

theorem quiet_bridge_faithful :
    Faithful (knowing [.setExclusive true, .input .pinchEnd])
        (after (knowing [.setExclusive true, .input .pinchEnd]) quietBridge) ∧
      (after (knowing [.setExclusive true, .input .pinchEnd]) quietBridge).forwarded
        (knowing [.setExclusive true, .input .pinchEnd]) = [.pinchEnd] ∧
      (after (knowing [.setExclusive true, .input .pinchEnd]) quietBridge).exclusive = true := by
  refine ⟨faithful_of_unbroken _ quietBridge ⟨?_, ?_⟩ (by decide +kernel), ?_, ?_⟩
  · decide +kernel
  · decide +kernel
  · decide +kernel
  · decide +kernel

/-- Two bytes of a command arrive, the read times out, and the rest arrives. -/
def brokenCommand : List Op :=
  [.setExclusive true, .arrive .commands 2, .read .commands, .timeOut .commands,
    .arrive .commands 100, .read .commands]

/-- The rest is read as a length over the limit, and the helper's reader ends. -/
theorem broken_command_never_decoded :
    ¬∀ (fromSlice : List UInt8 → Option HelperMessage) (ops : List Op),
      ReadsBack fromSlice (after fromSlice ops) → Faithful fromSlice (after fromSlice ops) := by
  intro h
  have hfaithful := h (knowing [.setExclusive true]) brokenCommand
    ⟨by decide +kernel, by decide +kernel⟩
  have hended : ((after (knowing [.setExclusive true]) brokenCommand).pipe .commands).ended =
      true := by decide +kernel
  exact absurd (hended.symm.trans (hfaithful.going .commands)) (by decide)

end CaptureBridge

end TheKvm

import TheKvm.Daemon.RemoteInput
import TheKvm.Lib.Trace
import TheKvm.Platform.KeyTables

/-!
The one rebuild of a native injector.

An injector that fails is dropped and made anew, and the event is tried again. A key the injector
has no code for fails like a dead device, so it lets go of all that is held, fails the second time
too, and with it the stream.
-/

namespace TheKvm

/-- What the daemon uses of a native injector. -/
structure NativeInjector (σ ω : Type*) where
  /-- what `create` makes -/
  fresh : σ
  send : σ → InputEvent → Sent σ ω
  /-- what `drop` writes -/
  drop : σ → List ω
  /-- the keys it has a code for -/
  injects : HidUsage → Bool

namespace NativeInjector

variable {σ ω : Type*} (n : NativeInjector σ ω)

/-- The event is no key, or one with a code. -/
def supports : InputEvent → Bool
  | .key event => n.injects event.usage
  | _ => true

/-- Only the keys without a code fail, and these do nothing else. -/
structure FailsOnKeys : Prop where
  supported : ∀ s event, n.supports event = true → (n.send s event).result = .ok ()
  unsupported : ∀ s event, n.supports event = false →
    ∃ error, n.send s event = ⟨s, [], .error error⟩

/-- What the injector holds and has written after the events, none of which fails. -/
def fed (events : List InputEvent) : σ × List ω :=
  events.foldl (fun p event =>
    ((n.send p.1 event).injector, p.2 ++ (n.send p.1 event).inputs)) (n.fresh, [])

end NativeInjector

/-- Why a stream ends. -/
inductive InputFailure
  | handoff (error : String)
  | create (error : String)
  | inject (error : String)
  deriving DecidableEq

/-- An episode with its injector. The last fields are its history. -/
structure InjectRun (σ ω : Type*) where
  remote : RemoteInput
  injector : σ
  failure : Option InputFailure
  /-- The events that were handed to the injector. -/
  accepted : List InputEvent
  written : List ω
  rebuilds : ℕ

/-- A packet, what the operating system shows, and why `create` fails if it does. -/
structure InjectArrival where
  packet : InputPacket
  os : OsTruth
  createFails : Option String

namespace InjectRun

section

variable {σ ω : Type*} (n : NativeInjector σ ω) (config : ReceiverConfig)
  (peerGeometry : Option ScreenGeometry)

def start (remote : RemoteInput) : InjectRun σ ω := ⟨remote, n.fresh, none, [], [], 0⟩

/-- The end of `process_remote_input`. -/
def inject (s : InjectRun σ ω) (createFails : Option String) (event : InputEvent) :
    InjectRun σ ω :=
  let s := { s with accepted := s.accepted ++ [event] }
  let sent := n.send s.injector event
  let s := { s with injector := sent.injector, written := s.written ++ sent.inputs }
  match sent.result with
  | .ok () => s
  | .error _ =>
    match createFails with
    | some error => { s with failure := some (.create error) }
    | none =>
      let again := n.send n.fresh event
      { s with
        injector := again.injector
        written := s.written ++ n.drop s.injector ++ again.inputs
        rebuilds := s.rebuilds + 1
        failure := match again.result with
          | .ok () => none
          | .error error => some (.inject error) }

/-- A packet on a stream that has not failed. -/
def step (s : InjectRun σ ω) (a : InjectArrival) : InjectRun σ ω × Unit :=
  if s.failure.isSome then (s, ())
  else
    match s.remote.process config a.os peerGeometry a.packet with
    | (remote, .inject event) => ({ s with remote }.inject n a.createFails event, ())
    | (remote, .failed error) => ({ s with remote, failure := some (.handoff error) }, ())
    | (remote, _) => ({ s with remote }, ())

/-- The episode after some packets. -/
abbrev after (remote : RemoteInput) (l : List InjectArrival) : InjectRun σ ω :=
  Trace.final (step n config peerGeometry) (start n remote) l

/-- What is held and written is what the supported events hold and write, and no key cost the
injector or the stream. -/
structure Undisturbed (s : InjectRun σ ω) : Prop where
  effects : (s.injector, s.written) = n.fed (s.accepted.filter n.supports)
  kept : s.rebuilds = 0
  live : ∀ error, s.failure ≠ some (.create error) ∧ s.failure ≠ some (.inject error)

/-- The event of an accepted packet of a run is supported. -/
def Supported (remote : RemoteInput) (m : List InjectArrival) (a : InjectArrival) : Prop :=
  let s := after n config peerGeometry remote m
  s.failure = none → s.remote.Admits config a.os peerGeometry a.packet →
    n.supports a.packet.event = true

end

variable {σ ω : Type*} {n : NativeInjector σ ω} {config : ReceiverConfig}
  {geometry : Option ScreenGeometry} {remote : RemoteInput} {s : InjectRun σ ω}

lemma fed_snoc (n : NativeInjector σ ω) (events : List InputEvent) (event : InputEvent) :
    n.fed (events ++ [event]) =
      ((n.send (n.fed events).1 event).injector,
        (n.fed events).2 ++ (n.send (n.fed events).1 event).inputs) := by
  rw [NativeInjector.fed, List.foldl_append]
  rfl

/-! ### One event -/

lemma Undisturbed.inject (hn : n.FailsOnKeys) (h : Undisturbed n s) {createFails : Option String}
    {event : InputEvent} (hevent : n.supports event = true) :
    Undisturbed n (s.inject n createFails event) := by
  have hok := hn.supported s.injector event hevent
  simp only [InjectRun.inject, hok]
  refine ⟨?_, h.kept, h.live⟩
  rw [List.filter_append, List.filter_singleton, hevent, cond_true, fed_snoc, ← h.effects]

/-- A key without a code costs the injector, or the stream at once. -/
lemma not_undisturbed_inject (hn : n.FailsOnKeys) (h : s.rebuilds = 0)
    {createFails : Option String} {event : InputEvent} (hevent : n.supports event = false) :
    ¬Undisturbed n (s.inject n createFails event) := by
  obtain ⟨error, hsent⟩ := hn.unsupported s.injector event hevent
  intro hu
  simp only [InjectRun.inject, hsent] at hu
  rcases createFails with _ | failure
  · have hkept := hu.kept
    simp [h] at hkept
  · exact (hu.live failure).1 rfl

/-! ### A run -/

lemma step_failed {a : InjectArrival} (h : s.failure ≠ none) :
    (step n config geometry s a).1 = s := by
  rw [step, if_pos (Option.isSome_iff_ne_none.mpr h)]

/-- Without an injection the injector is left alone. -/
lemma step_of_not_admits {a : InjectArrival} (hlive : s.failure = none) (h : Undisturbed n s)
    (hnot : ¬s.remote.Admits config a.os geometry a.packet) :
    Undisturbed n (step n config geometry s a).1 := by
  rw [← RemoteInput.process_inject] at hnot
  rw [step, if_neg (by simp [hlive])]
  rcases hprocess : s.remote.process config a.os geometry a.packet
    with ⟨remote, _ | message | error | event⟩
  · exact ⟨h.effects, h.kept, h.live⟩
  · exact ⟨h.effects, h.kept, h.live⟩
  · exact ⟨h.effects, h.kept, by simp⟩
  · exact absurd ⟨event, by rw [hprocess]⟩ hnot

lemma step_of_admits {a : InjectArrival} (hlive : s.failure = none)
    (h : s.remote.Admits config a.os geometry a.packet) :
    ∃ remote, (step n config geometry s a).1 =
      { s with remote }.inject n a.createFails a.packet.event := by
  obtain ⟨event, hevent⟩ := RemoteInput.process_inject.mpr h
  have heq := RemoteInput.process_event hevent
  rw [step, if_neg (by simp [hlive])]
  rcases hprocess : s.remote.process config a.os geometry a.packet with ⟨remote, outcome⟩
  rw [hprocess] at hevent
  obtain rfl : outcome = .inject event := hevent
  exact ⟨remote, by rw [← heq]⟩

/-- One packet keeps the episode undisturbed exactly if it is supported. -/
lemma undisturbed_step_iff (hn : n.FailsOnKeys) {m : List InjectArrival} {a : InjectArrival}
    (h : Undisturbed n (after n config geometry remote m)) :
    Undisturbed n (after n config geometry remote (m ++ [a])) ↔
      Supported n config geometry remote m a := by
  rw [after, Trace.final_snoc, Supported]
  by_cases hlive : (after n config geometry remote m).failure = none
  · by_cases hadmits :
        (after n config geometry remote m).remote.Admits config a.os geometry a.packet
    · obtain ⟨remote', hstep⟩ := step_of_admits (n := n) hlive hadmits
      have hu : Undisturbed n { after n config geometry remote m with remote := remote' } :=
        ⟨h.effects, h.kept, h.live⟩
      rw [hstep]
      rcases hevent : n.supports a.packet.event
      · exact iff_of_false (not_undisturbed_inject hn hu.kept hevent)
          fun hsupported => Bool.false_ne_true (hsupported hlive hadmits)
      · exact iff_of_true (hu.inject hn hevent)
          fun _ _ => rfl
    · exact iff_of_true (step_of_not_admits hlive h hadmits) fun _ hin => absurd hin hadmits
  · rw [step_failed hlive]
    exact iff_of_true h fun hl => absurd hl hlive

/-- An episode is undisturbed throughout exactly if all its accepted keys have a code. -/
theorem undisturbed_iff (hn : n.FailsOnKeys) (l : List InjectArrival) :
    (∀ m, m <+: l → Undisturbed n (after n config geometry remote m)) ↔
      Trace.Each (Supported n config geometry remote) l :=
  (Trace.each_iff (I := fun m => Undisturbed n (after n config geometry remote m))
    (P := Supported n config geometry remote) ⟨rfl, rfl, by simp [start]⟩
    fun m _ _ _ hbefore => undisturbed_step_iff hn (hbefore m (by rfl))).symm

/-! ### The two injectors -/

def uinput : NativeInjector UinputDevice Evdev.RawInputEvent where
  fresh := .create
  send := UinputDevice.send
  drop d := d.releaseAll.inputs
  injects usage := (Evdev.hidToEvdev usage).isSome

def win32 : NativeInjector Win32Injector Win32.Input where
  fresh := .create
  send := Win32Injector.send
  drop d := d.releaseAll.inputs
  injects usage := (Win32.keyCode usage).isSome

lemma uinput_failsOnKeys : uinput.FailsOnKeys where
  supported s event h := by
    cases event with
    | key event =>
      obtain ⟨code, hcode⟩ := Option.isSome_iff_exists.mp h
      simp only [uinput, UinputDevice.send, UinputDevice.sendKey, hcode]
      split_ifs <;> rfl
    | _ => rfl
  unsupported s event h := by
    cases event with
    | key event =>
      have hcode : Evdev.hidToEvdev event.usage = none :=
        Option.isNone_iff_eq_none.mp (Option.isSome_eq_false_iff.mp h)
      simp only [uinput, UinputDevice.send, UinputDevice.sendKey, hcode]
      exact ⟨_, rfl⟩
    | _ => cases h

lemma win32_failsOnKeys : win32.FailsOnKeys where
  supported s event h := by
    cases event with
    | key event =>
      obtain ⟨code, hcode⟩ := Option.isSome_iff_exists.mp h
      simp only [win32, Win32Injector.send, Win32Injector.sendKey, hcode]
      rfl
    | _ => rfl
  unsupported s event h := by
    cases event with
    | key event =>
      have hcode : Win32.keyCode event.usage = none :=
        Option.isNone_iff_eq_none.mp (Option.isSome_eq_false_iff.mp h)
      simp only [win32, Win32Injector.send, Win32Injector.sendKey, hcode]
      exact ⟨_, rfl⟩
    | _ => cases h

/-- **When keys do not disturb the episode.** It is undisturbed throughout exactly if all accepted
keys have a code, which of the captured ones only some of the Linux captures lack. -/
theorem episodes_undisturbed_iff (config : ReceiverConfig) (geometry : Option ScreenGeometry)
    (remote : RemoteInput) (l : List InjectArrival) :
    ((∀ m, m <+: l → Undisturbed uinput (after uinput config geometry remote m)) ↔
      Trace.Each (Supported uinput config geometry remote) l) ∧
    ((∀ m, m <+: l → Undisturbed win32 (after win32 config geometry remote m)) ↔
      Trace.Each (Supported win32 config geometry remote) l) ∧
    (∀ usage, CapturedOnLinux usage ∧ uinput.injects usage = false ↔
      usage ∈ KeyTables.noEvdevCode) ∧
    (∀ usage, CapturedOnLinux usage ∧ win32.injects usage = false ↔
      usage ∈ KeyTables.noScanCode) ∧
    ¬∃ usage, CapturedOnWindows usage ∧
      (uinput.injects usage = false ∨ win32.injects usage = false) := by
  refine ⟨undisturbed_iff uinput_failsOnKeys l, undisturbed_iff win32_failsOnKeys l,
    KeyTables.noEvdevCode_iff, KeyTables.noScanCode_iff, ?_⟩
  rintro ⟨usage, hcaptured, hmissing⟩
  obtain ⟨hevdev, hscan⟩ := KeyTables.codes_of_windows hcaptured
  obtain hmissing | hmissing := hmissing
  · exact absurd (hmissing.symm.trans hevdev) Bool.false_ne_true
  · exact absurd (hmissing.symm.trans hscan) Bool.false_ne_true

/-! ### A key without a code -/

/-- A is held down, then comes a press of the key. -/
def heldAnd (usage : HidUsage) : List InjectArrival :=
  [⟨⟨1, .key ⟨0x04, true, false⟩⟩, ⟨none, false, none⟩, none⟩,
    ⟨⟨2, .key ⟨usage, true, false⟩⟩, ⟨none, false, none⟩, none⟩]

/-- A receiver without screens. -/
def bare : ReceiverConfig := ⟨"pc", ⟨[], none⟩, .double, .mirror⟩

/-- The Yen key of a Linux keyboard lets go of A on a Linux receiver and ends the stream, and so
does its Copy key on a Windows receiver. -/
theorem uncoded_key_ends_stream : CapturedOnLinux 0x89 ∧ CapturedOnLinux 0x7c ∧
    (after uinput bare none .init (heldAnd 0x89)).written =
      Evdev.emit Evdev.evKey 30 1 ++ Evdev.emit Evdev.evKey 30 0 ∧
    (after uinput bare none .init (heldAnd 0x89)).failure.isSome = true ∧
    ¬Undisturbed uinput (after uinput bare none .init (heldAnd 0x89)) ∧
    (after win32 bare none .init (heldAnd 0x7c)).written =
      [.keybd 0 0x1e false true, .keybd 0 0x1e false false] ∧
    (after win32 bare none .init (heldAnd 0x7c)).failure.isSome = true ∧
    ¬Undisturbed win32 (after win32 bare none .init (heldAnd 0x7c)) := by
  refine ⟨⟨124, rfl⟩, ⟨133, rfl⟩, by decide +kernel, by decide +kernel, fun h => ?_,
    by decide +kernel, by decide +kernel, fun h => ?_⟩
  · exact absurd h.kept (by decide +kernel)
  · exact absurd h.kept (by decide +kernel)

end InjectRun

end TheKvm

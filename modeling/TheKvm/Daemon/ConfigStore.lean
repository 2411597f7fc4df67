import TheKvm.Daemon.ControlServer
import TheKvm.Lib.Trace
import TheKvm.Protocol.ConfigFile

/-!
The live configuration beside its file, over the updates of a daemon.

A refused or unsaved update leaves both alone. An applied one is what the file gives back, where
the configuration speaks UDP: a loaded one does, and no update changes that.
-/

namespace TheKvm.Control

structure ConfigStore where
  live : Config
  /-- what `read_to_string` gives -/
  file : Except String (List Char)

/-- `SetConfig`, with what the replacement of the file comes to. -/
def ConfigStore.set (windows : Bool) (s : ConfigStore) (replaced : Except String Unit)
    (update : ConfigUpdate) : ConfigStore × Response :=
  match update.refusal s.live with
  | some message => (s, .error message)
  | none =>
    let updated := update.applied s.live
    match updated.save replaced s.file with
    | (file, .ok ()) => (⟨updated, file⟩, .applied (restartRequired windows s.live updated))
    | (file, .error error) => (⟨s.live, file⟩, failed "saving configuration: " error)

/-- What an update does not ask for stays. The port stays in any case. -/
structure OnlyRequested (update : ConfigUpdate) (current updated : Config) : Prop where
  deviceName : update.deviceName = none → updated.deviceName = current.deviceName
  listenPort : updated.listenPort = current.listenPort
  mode : update.mode = none → updated.mode = current.mode
  transport : update.transport = none → updated.transport = current.transport
  edgeMode : update.edgeMode = none → updated.edgeMode = current.edgeMode
  layout : update.layout = none → updated.layout = current.layout
  allowLockScreenControl : update.allowLockScreenControl = none →
    updated.allowLockScreenControl = current.allowLockScreenControl
  autoConnectAddress : update.clearAutoConnect = false → update.autoConnectAddress = none →
    updated.autoConnectAddress = current.autoConnectAddress
  clipboardEnabled : update.clipboardEnabled = none →
    updated.clipboardEnabled = current.clipboardEnabled
  clipboardMaxMb : update.clipboardMaxMb = none → updated.clipboardMaxMb = current.clipboardMaxMb
  reverseScroll : update.reverseScroll = none → updated.reverseScroll = current.reverseScroll
  autoDiscover : update.autoDiscover = none → updated.autoDiscover = current.autoDiscover
  doubleEdgeStyle : update.doubleEdgeStyle = none →
    updated.doubleEdgeStyle = current.doubleEdgeStyle

lemma onlyRequested_applied (update : ConfigUpdate) (current : Config) :
    OnlyRequested update current (update.applied current) where
  deviceName h := by simp [ConfigUpdate.applied, h]
  listenPort := rfl
  mode h := by simp [ConfigUpdate.applied, h]
  transport h := by simp [ConfigUpdate.applied, h]
  edgeMode h := by simp [ConfigUpdate.applied, h]
  layout h := by simp [ConfigUpdate.applied, h]
  allowLockScreenControl h := by simp [ConfigUpdate.applied, h]
  autoConnectAddress hkeep h := by simp [ConfigUpdate.applied, hkeep, h]
  clipboardEnabled h := by simp [ConfigUpdate.applied, h]
  clipboardMaxMb h := by simp [ConfigUpdate.applied, h]
  reverseScroll h := by simp [ConfigUpdate.applied, h]
  autoDiscover h := by simp [ConfigUpdate.applied, h]
  doubleEdgeStyle h := by simp [ConfigUpdate.applied, h]

lemma transport_applied {update : ConfigUpdate} {current : Config} :
    (update.applied current).transport = .udp ↔
      update.transport.isSome = true ∨ current.transport = .udp := by
  rw [ConfigUpdate.applied]
  cases update.transport <;> simp

section

variable {windows : Bool} {fromStr : List Char → Except String Config} {s : ConfigStore}
  {replaced : Except String Unit} {update : ConfigUpdate}

/-- What an update does. -/
lemma set_cases (windows : Bool) (s : ConfigStore) (replaced : Except String Unit)
    (update : ConfigUpdate) :
    (∃ message, s.set windows replaced update = (s, .error message)) ∨
    ((update.applied s.live).validate = .ok () ∧ ∃ restart, s.set windows replaced update =
      (⟨update.applied s.live, .ok (update.applied s.live).fileText⟩, .applied restart)) := by
  unfold ConfigStore.set
  cases update.refusal s.live with
  | some message => exact .inl ⟨message, rfl⟩
  | none =>
    simp only [Config.save]
    cases hvalid : (update.applied s.live).validate with
    | error error => exact .inl ⟨_, rfl⟩
    | ok valid =>
      cases replaced with
      | error error => exact .inl ⟨_, rfl⟩
      | ok _ => exact .inr ⟨rfl, _, rfl⟩

/-- What it does to the live configuration, and what it answers, is what the handler does. -/
lemma set_eq_setConfig (windows : Bool) (s : ConfigStore) (replaced : Except String Unit)
    (update : ConfigUpdate) :
    ((s.set windows replaced update).1.live, (s.set windows replaced update).2) =
      setConfig windows s.live replaced update := by
  unfold ConfigStore.set setConfig
  cases update.refusal s.live with
  | some message => rfl
  | none =>
    simp only [Config.save, save_cases]
    cases (update.applied s.live).validate with
    | error error => rfl
    | ok valid => cases replaced <;> rfl

/-- No update takes UDP away. -/
lemma transport_set (h : s.live.transport = .udp) :
    (s.set windows replaced update).1.live.transport = .udp := by
  obtain ⟨message, hset⟩ | ⟨-, restart, hset⟩ := set_cases windows s replaced update
  · rw [hset]
    exact h
  · rw [hset]
    exact transport_applied.mpr (.inr h)

/-- **An update is atomic and durable.** An error leaves memory and file as they were; what is
applied changes only what was asked for, passes its checks, and is what the file gives back
exactly if it speaks UDP, as all that is loaded does and no update changes. -/
theorem set_atomic_durable (windows : Bool) (fromStr : List Char → Except String Config)
    (s : ConfigStore) (replaced : Except String Unit) (update : ConfigUpdate)
    (hserde : fromStr (update.applied s.live).fileText = .ok (update.applied s.live)) :
    (∀ message, (s.set windows replaced update).2 = .error message →
      (s.set windows replaced update).1 = s) ∧
    (∀ restart, (s.set windows replaced update).2 = .applied restart →
      (s.set windows replaced update).1.live = update.applied s.live ∧
      OnlyRequested update s.live (s.set windows replaced update).1.live ∧
      (s.set windows replaced update).1.live.validate = .ok () ∧
      (Config.load fromStr (s.set windows replaced update).1.file =
          .ok (s.set windows replaced update).1.live ↔
        update.transport.isSome = true ∨ s.live.transport = .udp)) ∧
    (s.live.transport = .udp → (s.set windows replaced update).1.live.transport = .udp) ∧
    ∀ file config, Config.load fromStr file = .ok config → config.transport = .udp := by
  refine ⟨?_, ?_, transport_set, fun _ _ hload => (Config.load_ok hload).2⟩ <;>
    obtain ⟨message, hset⟩ | ⟨hvalid, restart, hset⟩ := set_cases windows s replaced update <;>
    rw [hset]
  · exact fun _ _ => rfl
  · exact nofun
  · exact nofun
  · refine fun _ _ => ⟨rfl, onlyRequested_applied update s.live, hvalid, ?_⟩
    rw [Config.load_fileText hserde hvalid, ← transport_applied, Except.ok.injEq]
    refine ⟨fun h => (congrArg Config.transport h).symm, fun h => ?_⟩
    rw [← h]

end

/-- An update with what the replacement of the file comes to. -/
def ConfigStore.step (windows : Bool) (s : ConfigStore) (op : Except String Unit × ConfigUpdate) :
    ConfigStore × Response := s.set windows op.1 op.2

/-- A daemon that starts from its file speaks UDP through all updates. -/
theorem speaks_udp_throughout {windows : Bool} {fromStr : List Char → Except String Config}
    {s : ConfigStore} (hload : Config.load fromStr s.file = .ok s.live)
    (ops : List (Except String Unit × ConfigUpdate)) :
    (Trace.final (ConfigStore.step windows) s ops).live.transport = .udp := by
  induction ops using List.reverseRecOn with
  | nil => exact (Config.load_ok hload).2
  | append_singleton ops op ih =>
    rw [Trace.final_snoc]
    exact transport_set ih

/-! ### Two updates -/

def defaults : Config where
  deviceName := "pc"
  listenPort := 42110
  mode := .bidirectional
  transport := .udp
  edgeMode := .double
  layout := ⟨[], none⟩
  allowLockScreenControl := false
  autoConnectAddress := none
  clipboardEnabled := true
  clipboardMaxMb := 2
  reverseScroll := false
  autoDiscover := true
  doubleEdgeStyle := .mirror

/-- Nothing is asked for but the direction of scrolling. -/
def reversed : ConfigUpdate where
  deviceName := none
  mode := none
  allowLockScreenControl := none
  listenPort := none
  layout := none
  autoConnectAddress := none
  clearAutoConnect := false
  clipboardEnabled := none
  clipboardMaxMb := none
  edgeMode := none
  transport := none
  reverseScroll := some true
  autoDiscover := none
  doubleEdgeStyle := none

/-- A store whose file is what was saved last. -/
def stored (config : Config) : ConfigStore := ⟨config, .ok config.fileText⟩

/-- A saved and applied update is what the file gives back. -/
theorem reversed_reloads :
    (stored defaults).set false (.ok ()) reversed =
      (stored (reversed.applied defaults), .applied false) ∧
    Config.load (fun _ => .ok (reversed.applied defaults))
      (stored (reversed.applied defaults)).file = .ok (reversed.applied defaults) := by
  have hset : (stored defaults).set false (.ok ()) reversed =
      (stored (reversed.applied defaults), .applied false) := by
    have hnone : reversed.refusal defaults = none := by decide
    have hvalid : (reversed.applied defaults).validate = .ok () := by decide
    simp only [ConfigStore.set, stored, hnone, Config.save, hvalid]
    rfl
  obtain ⟨-, happlied, -⟩ := set_atomic_durable false (fun _ => .ok (reversed.applied defaults))
    (stored defaults) (.ok ()) reversed rfl
  rw [hset] at happlied
  exact ⟨hset, (happlied false rfl).2.2.2.mpr (.inr rfl)⟩

def quicDefaults : Config := { defaults with transport := .quic }

/-- A configuration with the old transport, which no daemon has live, would not come back. -/
theorem quic_does_not_reload : quicDefaults.validate = .ok () ∧
    (stored quicDefaults).set false (.ok ()) reversed =
      (stored (reversed.applied quicDefaults), .applied false) ∧
    ¬∀ fromStr : List Char → Except String Config,
      fromStr (reversed.applied quicDefaults).fileText = .ok (reversed.applied quicDefaults) →
        Config.load fromStr (stored (reversed.applied quicDefaults)).file =
          .ok (reversed.applied quicDefaults) := by
  have hvalid : (reversed.applied quicDefaults).validate = .ok () := by decide
  refine ⟨by decide, ?_, fun h => ?_⟩
  · have hnone : reversed.refusal quicDefaults = none := by decide
    simp only [ConfigStore.set, stored, hnone, Config.save, hvalid]
    rfl
  · have hback : Config.load (fun _ => .ok (reversed.applied quicDefaults))
        (stored (reversed.applied quicDefaults)).file =
          .ok { reversed.applied quicDefaults with transport := .udp } :=
      Config.load_fileText rfl hvalid
    have heq := Except.ok.inj (hback.symm.trans (h _ rfl))
    exact absurd (congrArg Config.transport heq) (by decide)

end TheKvm.Control

import TheKvm.Core.Arrange
import TheKvm.Daemon.ControlServer
import TheKvm.Lib.Trace

/-!
The settings actions of the UI.

An action reads the configuration of the daemon, and writes back what it read together with the
setting it is about. Several may be under way at once: presses run on threads of their own, and the
poll thread arranges screens.
-/

namespace TheKvm

open Control

def defaultClipboardMaxMb : UInt32 := 2

/-- `Config::default`, with the name of the host. -/
def Config.fresh (hostname : String) : Config where
  deviceName := hostname
  listenPort := 42110
  mode := .bidirectional
  transport := .udp
  edgeMode := .double
  layout := .empty
  allowLockScreenControl := false
  autoConnectAddress := none
  clipboardEnabled := true
  clipboardMaxMb := defaultClipboardMaxMb
  reverseScroll := false
  autoDiscover := true
  doubleEdgeStyle := .mirror

/-! ### Requests -/

/-- What an action writes back of what it read. -/
def writeBack (current : Config) : ConfigUpdate where
  deviceName := some current.deviceName
  mode := some current.mode
  allowLockScreenControl := some current.allowLockScreenControl
  listenPort := none
  layout := none
  autoConnectAddress := current.autoConnectAddress
  clearAutoConnect := current.autoConnectAddress.isNone
  clipboardEnabled := some current.clipboardEnabled
  clipboardMaxMb := none
  edgeMode := none
  transport := none
  reverseScroll := none
  autoDiscover := none
  doubleEdgeStyle := none

/-- `only_auto_connect`. -/
def onlyAutoConnect (current : Config) (address : Option String) (clear : Bool) : ConfigUpdate :=
  { writeBack current with autoConnectAddress := address, clearAutoConnect := clear }

inductive SettingsAction
  | setRole (requested : Mode)
  | setEdgeMode (requestedMode : EdgeMode) (requestedStyle : DoubleEdgeStyle)
  | setReverseScroll (wanted : Bool)
  | applyAutoDiscover (wanted : Bool)
  | applyAutoConnect (wanted : Bool)
  | writeArrangement (layout : Layout)
  | importLayout (layout : Layout)

namespace SettingsAction

/-- The `SetConfig` of an action. A layout that fails its check is not sent, nor is a wish to
reconnect with no address to reconnect to. -/
def request (current : Config) : SettingsAction → Option ConfigUpdate
  | .setRole requested => some { writeBack current with mode := some requested }
  | .setEdgeMode requestedMode requestedStyle =>
    some { writeBack current with
      edgeMode := some requestedMode, doubleEdgeStyle := some requestedStyle }
  | .setReverseScroll wanted => some { writeBack current with reverseScroll := some wanted }
  | .applyAutoDiscover wanted => some { writeBack current with autoDiscover := some wanted }
  | .applyAutoConnect false => some (onlyAutoConnect current none true)
  | .applyAutoConnect true =>
    current.autoConnectAddress.map fun address => onlyAutoConnect current (some address) false
  | .writeArrangement layout =>
    if layout.validate.isOk then some { writeBack current with layout := some layout } else none
  | .importLayout layout =>
    if layout.validate.isOk then
      some { onlyAutoConnect current none false with layout := some layout }
    else none

/-- What an action is about, and nothing else. -/
def ask (current : Config) (config : Config) : SettingsAction → Config
  | .setRole requested => { config with mode := requested }
  | .setEdgeMode requestedMode requestedStyle =>
    { config with edgeMode := requestedMode, doubleEdgeStyle := requestedStyle }
  | .setReverseScroll wanted => { config with reverseScroll := wanted }
  | .applyAutoDiscover wanted => { config with autoDiscover := wanted }
  | .applyAutoConnect false => { config with autoConnectAddress := none }
  | .applyAutoConnect true =>
    { config with autoConnectAddress := current.autoConnectAddress.map Text.trim }
  | .writeArrangement layout => { config with layout }
  | .importLayout layout => { config with layout }

end SettingsAction

/-! ### Actions under way -/

structure Editing where
  action : SettingsAction
  current : Config

/-- The daemon's configuration, the actions that have read it, and what was asked for of what they
were about. -/
structure SettingsDesk where
  config : Config
  editing : List Editing
  asked : Config

namespace SettingsDesk

inductive Op
  | getConfig (action : SettingsAction)
  /-- One of the actions under way writes; the file takes it or not. -/
  | setConfig (editing : ℕ) (saved : Except String Unit)

variable (windows : Bool)

def step (s : SettingsDesk) : Op → SettingsDesk × Option Response
  | .getConfig action =>
    if (action.request s.config).isSome then
      ({ s with editing := s.editing ++ [⟨action, s.config⟩] }, none)
    else (s, none)
  | .setConfig editing saved =>
    match s.editing[editing]? with
    | none => (s, none)
    | some e =>
      match e.action.request e.current with
      | none => (s, none)
      | some update =>
        match setConfig windows s.config saved update with
        | (config, .applied restartRequired) =>
          (⟨config, s.editing.eraseIdx editing, e.action.ask e.current s.asked⟩,
            some (.applied restartRequired))
        | (config, response) =>
          ({ s with config, editing := s.editing.eraseIdx editing }, some response)

def start (config : Config) : SettingsDesk := ⟨config, [], config⟩

def after (config : Config) (ops : List Op) : SettingsDesk :=
  Trace.final (step windows) (start config) ops

/-- Every setting has the value last asked for, or the one it had. -/
def AsAsked (s : SettingsDesk) (op : Op) : Prop :=
  (s.step windows op).1.config = (s.step windows op).1.asked

end SettingsDesk

/-- An action finds the settings that it writes back as it read them. -/
@[mk_iff]
structure Editing.Fresh (e : Editing) (config : Config) : Prop where
  deviceName : Text.trim e.current.deviceName = config.deviceName
  mode : (∃ requested, e.action = .setRole requested) ∨ e.current.mode = config.mode
  allowLockScreenControl : e.current.allowLockScreenControl = config.allowLockScreenControl
  autoConnectAddress : (∃ wanted, e.action = .applyAutoConnect wanted) ∨
    (∃ layout, e.action = .importLayout layout) ∨
    e.current.autoConnectAddress.map Text.trim = config.autoConnectAddress
  clipboardEnabled : e.current.clipboardEnabled = config.clipboardEnabled

/-- The daemon applies an update: it refuses nothing of it, and the result is saved. -/
def Control.ConfigUpdate.Accepted (update : ConfigUpdate) (current : Config)
    (saved : Except String Unit) : Prop :=
  update.refusal current = none ∧ save (update.applied current) saved = .ok ()

instance (update : ConfigUpdate) (current : Config) (saved : Except String Unit) :
    Decidable (update.Accepted current saved) :=
  inferInstanceAs (Decidable (_ ∧ _))

/-- A write that the daemon accepts is of an action that read what it writes back. -/
def SettingsDesk.Fresh (s : SettingsDesk) : SettingsDesk.Op → Prop
  | .getConfig _ => True
  | .setConfig editing saved => ∀ e update, s.editing[editing]? = some e →
    e.action.request e.current = some update → update.Accepted s.config saved →
    e.Fresh s.config

/-! ### One write -/

/-- What an accepted update makes of the configuration. -/
lemma setConfig_of_accepted (windows : Bool) {current : Config} {saved : Except String Unit}
    {update : ConfigUpdate} (h : update.Accepted current saved) :
    setConfig windows current saved update = (update.applied current,
      .applied (restartRequired windows current (update.applied current))) := by
  obtain ⟨hrefusal, hsave⟩ := h
  rw [setConfig, hrefusal]
  simp only [hsave]

/-- What is not accepted changes nothing, and is answered with an error. -/
lemma setConfig_of_not_accepted (windows : Bool) {current : Config} {saved : Except String Unit}
    {update : ConfigUpdate} (h : ¬update.Accepted current saved) :
    ∃ message, setConfig windows current saved update = (current, .error message) := by
  rcases hrefusal : update.refusal current with _ | message
  · rcases hsave : save (update.applied current) saved with error | ⟨⟨⟩⟩
    · refine ⟨"saving configuration: " ++ error, ?_⟩
      rw [setConfig, hrefusal]
      simp only [hsave]
      rfl
    · exact absurd ⟨hrefusal, hsave⟩ h
  · refine ⟨message, ?_⟩
    rw [setConfig, hrefusal]

lemma Control.ConfigUpdate.accepted_iff {update : ConfigUpdate} {current : Config}
    {saved : Except String Unit} : update.Accepted current saved ↔
      update.refusal current = none ∧ (update.applied current).validate = .ok () ∧
        saved = .ok () := by
  rw [Accepted, save_cases]
  cases (update.applied current).validate <;> simp

/-- An update asks for what its action is about exactly if nothing that it writes back is stale. -/
lemma Editing.applied_eq_ask_iff {e : Editing} {update : ConfigUpdate} {config : Config}
    (h : e.action.request e.current = some update) :
    update.applied config = e.action.ask e.current config ↔ e.Fresh config := by
  obtain ⟨action, current⟩ := e
  rw [Editing.fresh_iff]
  obtain ⟨⟩ := config
  cases action with
  | setRole | setEdgeMode | setReverseScroll | applyAutoDiscover =>
    obtain rfl := Option.some.inj h
    cases hc : current.autoConnectAddress <;>
      simp [ConfigUpdate.applied, writeBack, SettingsAction.ask, hc]
  | applyAutoConnect wanted =>
    cases wanted with
    | false =>
      obtain rfl := Option.some.inj h
      simp [ConfigUpdate.applied, writeBack, onlyAutoConnect, SettingsAction.ask]
    | true =>
      obtain ⟨address, hc, rfl⟩ := Option.map_eq_some_iff.mp h
      replace hc : current.autoConnectAddress = some address := hc
      simp [ConfigUpdate.applied, writeBack, onlyAutoConnect, SettingsAction.ask, hc]
  | writeArrangement layout =>
    rw [SettingsAction.request, Option.ite_none_right_eq_some] at h
    obtain rfl := Option.some.inj h.2
    cases hc : current.autoConnectAddress <;>
      simp [ConfigUpdate.applied, writeBack, SettingsAction.ask, hc]
  | importLayout layout =>
    rw [SettingsAction.request, Option.ite_none_right_eq_some] at h
    obtain rfl := Option.some.inj h.2
    simp [ConfigUpdate.applied, writeBack, onlyAutoConnect, SettingsAction.ask]

namespace SettingsDesk

variable {windows : Bool} {s : SettingsDesk}

lemma fresh_setConfig_iff {editing : ℕ} {saved : Except String Unit} {e : Editing}
    {update : ConfigUpdate} (he : s.editing[editing]? = some e)
    (hu : e.action.request e.current = some update) :
    s.Fresh (.setConfig editing saved) ↔ (update.Accepted s.config saved → e.Fresh s.config) := by
  constructor
  · exact fun h => h e update he hu
  · intro h e' update' he' hu'
    obtain rfl := Option.some.inj (he.symm.trans he')
    obtain rfl := Option.some.inj (hu.symm.trans hu')
    exact h

lemma step_setConfig (windows : Bool) {editing : ℕ} (saved : Except String Unit) {e : Editing}
    {update : ConfigUpdate} (he : s.editing[editing]? = some e)
    (hu : e.action.request e.current = some update) :
    ((s.step windows (.setConfig editing saved)).1.config,
        (s.step windows (.setConfig editing saved)).1.asked) =
      if update.Accepted s.config saved then
        (update.applied s.config, e.action.ask e.current s.asked)
      else (s.config, s.asked) := by
  have hstep : s.step windows (.setConfig editing saved) =
      match setConfig windows s.config saved update with
      | (config, .applied restartRequired) =>
        (⟨config, s.editing.eraseIdx editing, e.action.ask e.current s.asked⟩,
          some (.applied restartRequired))
      | (config, response) =>
        ({ s with config, editing := s.editing.eraseIdx editing }, some response) := by
    simp only [step, he, hu]
  split_ifs with haccepted
  · rw [hstep, setConfig_of_accepted windows haccepted]
  · obtain ⟨message, hset⟩ := setConfig_of_not_accepted windows haccepted
    rw [hstep, hset]

lemma asAsked_iff_fresh (hs : s.config = s.asked) (op : Op) :
    s.AsAsked windows op ↔ s.Fresh op := by
  cases op with
  | getConfig action =>
    rw [AsAsked, step]
    split <;> exact iff_of_true hs trivial
  | setConfig editing saved =>
    rcases he : s.editing[editing]? with _ | e
    · refine iff_of_true ?_ fun e' update he' => absurd (he.symm.trans he') (by simp)
      simp [AsAsked, step, he, hs]
    rcases hu : e.action.request e.current with _ | update
    · refine iff_of_true ?_ fun e' update he' hu' => ?_
      · simp [AsAsked, step, he, hu, hs]
      · obtain rfl := Option.some.inj (he.symm.trans he')
        exact absurd (hu.symm.trans hu') (by simp)
    have hstep := step_setConfig windows saved he hu
    rw [fresh_setConfig_iff he hu, ← Editing.applied_eq_ask_iff hu, AsAsked]
    split_ifs at hstep with haccepted
    · obtain ⟨hconfig, hasked⟩ := Prod.mk.inj hstep
      rw [hconfig, hasked, hs]
      rw [hs] at haccepted
      exact ⟨fun h _ => h, fun h => h haccepted⟩
    · obtain ⟨hconfig, hasked⟩ := Prod.mk.inj hstep
      rw [hconfig, hasked]
      exact iff_of_true hs fun h => absurd h haccepted

end SettingsDesk

/-! ### Overlapping actions -/

/-- **Settings actions**. However the reads and writes of settings actions interleave, every setting
has the value last asked for, or the one it had before, exactly if every write that the daemon
accepts finds what it writes back besides as its action had read it. -/
theorem settings_as_asked_iff (windows : Bool) (config : Config) (ops : List SettingsDesk.Op) :
    Trace.Each (fun m => (SettingsDesk.after windows config m).AsAsked windows) ops ↔
      Trace.Each (fun m => (SettingsDesk.after windows config m).Fresh) ops := by
  refine Trace.each_congr fun m op hm => SettingsDesk.asAsked_iff_fresh ?_ op
  refine Trace.invariant (I := fun _ (s : SettingsDesk) => s.config = s.asked) rfl ?_ hm
  exact fun m op hs hop => (SettingsDesk.asAsked_iff_fresh hs op).mpr hop

/-- The scroll switch and a role button are pressed together: the switch's write sets the role back
to what it read. -/
theorem scroll_undoes_role :
    let config := Config.fresh "desk"
    let pressed : List SettingsDesk.Op :=
      [.getConfig (.setReverseScroll true), .getConfig (.setRole .serverClient),
        .setConfig 1 (.ok ()), .setConfig 0 (.ok ())]
    (SettingsDesk.after false config pressed).editing = [] ∧
      (SettingsDesk.after false config pressed).config.mode = .bidirectional ∧
      (SettingsDesk.after false config pressed).asked.mode = .serverClient ∧
      ¬Trace.Each (fun m => (SettingsDesk.after false config m).AsAsked false) pressed := by
  refine ⟨rfl, rfl, rfl, fun h => ?_⟩
  have hlast := Trace.each_iff_getElem.mp h ⟨3, by decide⟩
  exact absurd (congrArg Config.mode hlast) (by decide)

end TheKvm

import TheKvm.Ui.ProgressRelay
import TheKvm.Ui.Settings

/-!
The two configurations of a machine.

The daemon keeps one. The UI mirrors changes of it into the user's, which the controlling child
reads. Here settings actions come one at a time.
-/

namespace TheKvm

open Control

/-! ### The user's configuration -/

/-- A configuration file: what is loaded and what is saved has passed its check. -/
structure ConfigFile where
  config : Config
  valid : config.validate = .ok ()

namespace ConfigFile

/-- `Config::save`; what fails its check is not written. -/
def save (file : ConfigFile) (config : Config) : ConfigFile :=
  if valid : config.validate = .ok () then ⟨config, valid⟩ else file

/-- `SetConfig`, where the file takes what is written. -/
def set (windows : Bool) (file : ConfigFile) (update : ConfigUpdate) : ConfigFile × Response :=
  let saved := setConfig windows file.config (.ok ()) update
  (⟨saved.1, validate_setConfig file.valid⟩, saved.2)

end ConfigFile

/-- The arguments of `mirror_user_config`. -/
structure Mirror where
  deviceName : String
  mode : Mode
  allowLockScreen : Bool
  clipboardEnabled : Bool
  clipboardMaxMb : Option UInt32
  layout : Option Layout
  edgeMode : Option EdgeMode
  transport : Option TransportProtocol
  reverseScroll : Option Bool
  autoDiscover : Option Bool
  doubleEdgeStyle : Option DoubleEdgeStyle

/-- The configuration with what is mirrored into it. -/
def Mirror.applied (m : Mirror) (config : Config) : Config where
  deviceName :=
    if (Text.trim m.deviceName).isEmpty then config.deviceName else Text.trim m.deviceName
  listenPort := config.listenPort
  mode := m.mode
  -- a file is loaded with UDP
  transport := m.transport.getD .udp
  edgeMode := m.edgeMode.getD config.edgeMode
  layout := m.layout.getD config.layout
  allowLockScreenControl := m.allowLockScreen
  autoConnectAddress := none
  clipboardEnabled := m.clipboardEnabled
  clipboardMaxMb := m.clipboardMaxMb.getD config.clipboardMaxMb
  reverseScroll := m.reverseScroll.getD config.reverseScroll
  autoDiscover := m.autoDiscover.getD config.autoDiscover
  doubleEdgeStyle := m.doubleEdgeStyle.getD config.doubleEdgeStyle

def mirrorUserConfig (user : ConfigFile) (m : Mirror) : ConfigFile :=
  user.save (m.applied user.config)

/-! ### Settings actions -/

/-- What every settings action mirrors of what it read. -/
def mirrorBack (current : Config) : Mirror where
  deviceName := current.deviceName
  mode := current.mode
  allowLockScreen := current.allowLockScreenControl
  clipboardEnabled := current.clipboardEnabled
  clipboardMaxMb := none
  layout := none
  edgeMode := none
  transport := none
  reverseScroll := none
  autoDiscover := none
  doubleEdgeStyle := none

/-- What an action mirrors once its change is applied. -/
def SettingsAction.mirror (current : Config) : SettingsAction → Option Mirror
  | .setRole requested =>
    some { mirrorBack current with mode := requested, edgeMode := some current.edgeMode }
  | .setEdgeMode requestedMode requestedStyle =>
    some { mirrorBack current with
      edgeMode := some requestedMode, doubleEdgeStyle := some requestedStyle }
  | .setReverseScroll wanted => some { mirrorBack current with reverseScroll := some wanted }
  | .applyAutoDiscover wanted => some { mirrorBack current with autoDiscover := some wanted }
  | .writeArrangement layout => some { mirrorBack current with layout := some layout }
  | .applyAutoConnect _ | .importLayout _ => none

/-! ### The Settings form -/

/-- What the form holds when it is applied. -/
structure SettingsForm where
  allowLockScreen : Bool
  modeIndex : Int32
  deviceName : String
  autoAddress : String
  clipboardEnabled : Bool
  clipboardMaxMb : String

namespace SettingsForm

def requestedMode (form : SettingsForm) : Mode :=
  if form.modeIndex = 1 then .serverClient
  else if form.modeIndex = 2 then .clientOnly
  else .bidirectional

/-- The limit in the form; nothing is done with a form that has none. -/
def maxMb (form : SettingsForm) : Option UInt32 :=
  match Progress.parseU64 (Text.trim form.clipboardMaxMb).toList with
  | none => none
  | some mb => if 1 ≤ mb ∧ mb ≤ maxClipboardMaxMb.toUInt64 then some mb.toUInt32 else none

def mirror (form : SettingsForm) (maxMb : UInt32) : Mirror where
  deviceName := form.deviceName
  mode := form.requestedMode
  allowLockScreen := form.allowLockScreen
  clipboardEnabled := form.clipboardEnabled
  clipboardMaxMb := some maxMb
  layout := none
  edgeMode := none
  transport := some .udp
  reverseScroll := none
  autoDiscover := none
  doubleEdgeStyle := none

def request (form : SettingsForm) (maxMb : UInt32) : ConfigUpdate where
  deviceName := some form.deviceName
  mode := some form.requestedMode
  allowLockScreenControl := some form.allowLockScreen
  listenPort := none
  layout := none
  autoConnectAddress :=
    if (Text.trim form.autoAddress).isEmpty then none else some form.autoAddress
  clearAutoConnect := (Text.trim form.autoAddress).isEmpty
  clipboardEnabled := some form.clipboardEnabled
  clipboardMaxMb := some maxMb
  edgeMode := none
  transport := some .udp
  reverseScroll := none
  autoDiscover := none
  doubleEdgeStyle := none

end SettingsForm

/-! ### One change at a time -/

inductive Change
  | settings (action : SettingsAction)
  | form (form : SettingsForm)

structure Copies where
  daemon : ConfigFile
  user : ConfigFile

/-- The two hold the same of what is mirrored. -/
@[mk_iff]
structure Config.Agrees (daemon user : Config) : Prop where
  deviceName : daemon.deviceName = user.deviceName
  mode : daemon.mode = user.mode
  allowLockScreenControl : daemon.allowLockScreenControl = user.allowLockScreenControl
  clipboardEnabled : daemon.clipboardEnabled = user.clipboardEnabled
  clipboardMaxMb : daemon.clipboardMaxMb = user.clipboardMaxMb
  layout : daemon.layout = user.layout
  edgeMode : daemon.edgeMode = user.edgeMode
  doubleEdgeStyle : daemon.doubleEdgeStyle = user.doubleEdgeStyle
  reverseScroll : daemon.reverseScroll = user.reverseScroll
  autoDiscover : daemon.autoDiscover = user.autoDiscover

namespace Copies

variable (windows : Bool)

def step (s : Copies) : Change → Copies × Option Response
  | .settings action =>
    match action.request s.daemon.config with
    | none => (s, none)
    | some update =>
      match s.daemon.set windows update with
      | (daemon, .applied restartRequired) =>
        (⟨daemon, (action.mirror s.daemon.config).elim s.user (mirrorUserConfig s.user)⟩,
          some (.applied restartRequired))
      | (daemon, response) => (⟨daemon, s.user⟩, some response)
  | .form form =>
    match form.maxMb with
    | none => (s, none)
    | some maxMb =>
      -- mirrored before the daemon has answered
      let user := mirrorUserConfig s.user (form.mirror maxMb)
      let (daemon, response) := s.daemon.set windows (form.request maxMb)
      (⟨daemon, user⟩, some response)

def after (s : Copies) (changes : List Change) : Copies := Trace.final (step windows) s changes

def Agree (s : Copies) : Prop := s.daemon.config.Agrees s.user.config

/-- The two agree after a change, whatever the daemon made of it. -/
def StaysAgreed (s : Copies) (change : Change) : Prop := (s.step windows change).1.Agree

end Copies

/-! ### Where they come apart -/

namespace SettingsForm

/-- No name, or an address to connect to under a role that only receives. -/
def Refused (form : SettingsForm) : Prop :=
  (Text.trim form.deviceName).isEmpty = true ∨
    form.requestedMode = .clientOnly ∧ (Text.trim form.autoAddress).isEmpty = false

/-- A name that no configuration has. -/
def NameUnfit (form : SettingsForm) : Prop :=
  maxDeviceNameBytes < Text.len (Text.trim form.deviceName) ∨
    (Text.trim form.deviceName).toList.any Text.isControl = true

/-- The form says what the configuration does, a blank name aside. -/
@[mk_iff]
structure Says (form : SettingsForm) (maxMb : UInt32) (config : Config) : Prop where
  deviceName : (Text.trim form.deviceName).isEmpty = true ∨
    config.deviceName = Text.trim form.deviceName
  mode : config.mode = form.requestedMode
  allowLockScreen : config.allowLockScreenControl = form.allowLockScreen
  clipboardEnabled : config.clipboardEnabled = form.clipboardEnabled
  clipboardMaxMb : config.clipboardMaxMb = maxMb

end SettingsForm

/-- A change that both copies take, or neither. -/
def Copies.Even (s : Copies) : Change → Prop
  | .settings (.importLayout layout) => layout.validate = .ok () →
    layout = s.daemon.config.layout ∧
      Text.trim s.daemon.config.deviceName = s.daemon.config.deviceName
  | .settings (.applyAutoConnect wanted) =>
    (wanted = true → s.daemon.config.autoConnectAddress.isSome) →
    Text.trim s.daemon.config.deviceName = s.daemon.config.deviceName
  | .settings _ => True
  | .form form => ∀ maxMb, form.maxMb = some maxMb → form.Refused →
    form.NameUnfit ∨ form.Says maxMb s.user.config

/-! ### Checks -/

/-- The check reads what is mirrored, the port and the address. -/
lemma Config.Agrees.validate {daemon user : Config} (h : daemon.Agrees user)
    (hvalid : daemon.validate = .ok ()) (hport : user.listenPort ≠ 0)
    (haddress : user.autoConnectAddress = none) : user.validate = .ok () := by
  obtain ⟨hname, -, -, -, hmax, hlayout⟩ := Config.validate_iff.mp hvalid
  rw [h.deviceName] at hname
  rw [h.clipboardMaxMb] at hmax
  rw [h.layout] at hlayout
  exact Config.validate_iff.mpr
    ⟨hname, hport, by rw [haddress]; rfl, by simp [haddress], hmax, hlayout⟩

/-- What is mirrored keeps the port, and drops the address. -/
lemma Mirror.applied_port (m : Mirror) (config : Config) :
    (m.applied config).listenPort = config.listenPort ∧
      (m.applied config).autoConnectAddress = none := by
  rw [Mirror.applied]
  exact ⟨rfl, rfl⟩

namespace ConfigFile

variable (windows : Bool) {file : ConfigFile} {update : ConfigUpdate} {config : Config}

lemma listenPort_ne_zero (file : ConfigFile) : file.config.listenPort ≠ 0 :=
  (Config.validate_iff.mp file.valid).2.1

lemma save_of_valid (h : config.validate = .ok ()) : (file.save config).config = config := by
  rw [save, dif_pos h]

lemma save_of_invalid (h : config.validate ≠ .ok ()) : file.save config = file := by
  rw [save, dif_neg h]

/-- What the daemon applies. -/
lemma set_of_accepted (h : update.Accepted file.config (.ok ())) :
    (file.set windows update).1.config = update.applied file.config ∧
      ∃ restartRequired, (file.set windows update).2 = .applied restartRequired := by
  have hset := setConfig_of_accepted windows h
  exact ⟨congrArg Prod.fst hset, _, congrArg Prod.snd hset⟩

/-- What it does not. -/
lemma set_of_not_accepted (h : ¬update.Accepted file.config (.ok ())) :
    (file.set windows update).1.config = file.config ∧
      ∃ message, (file.set windows update).2 = .error message := by
  obtain ⟨message, hset⟩ := setConfig_of_not_accepted windows h
  exact ⟨congrArg Prod.fst hset, message, congrArg Prod.snd hset⟩

end ConfigFile

/-! ### Settings actions, one at a time -/

section

variable {windows : Bool} {s : Copies}

namespace Copies

/-- What the daemon applies is mirrored, field by field. -/
lemma agrees_applied {daemon user : Config} {action : SettingsAction} {update : ConfigUpdate}
    {mirror : Mirror} (h : daemon.Agrees user)
    (hname : (Text.trim daemon.deviceName).isEmpty = false)
    (hu : action.request daemon = some update) (hm : action.mirror daemon = some mirror) :
    (update.applied daemon).Agrees (mirror.applied user) := by
  obtain ⟨h1, h2, h3, h4, h5, h6, h7, h8, h9, h10⟩ := h
  replace hname : Text.trim user.deviceName ≠ "" := by simpa [h1] using hname
  cases action with
  | setRole | setEdgeMode | setReverseScroll | applyAutoDiscover =>
    obtain rfl := Option.some.inj hu
    obtain rfl := Option.some.inj hm
    constructor <;> simp [ConfigUpdate.applied, Mirror.applied, writeBack, mirrorBack, *]
  | writeArrangement layout =>
    rw [SettingsAction.request, Option.ite_none_right_eq_some] at hu
    obtain rfl := Option.some.inj hu.2
    obtain rfl := Option.some.inj hm
    constructor <;> simp [ConfigUpdate.applied, Mirror.applied, writeBack, mirrorBack, *]
  | applyAutoConnect | importLayout => cases hm

lemma step_action (windows : Bool) (s : Copies) (action : SettingsAction) :
    s.step windows (.settings action) =
      match action.request s.daemon.config with
      | none => (s, none)
      | some update =>
        match s.daemon.set windows update with
        | (daemon, .applied restartRequired) =>
          (⟨daemon, (action.mirror s.daemon.config).elim s.user (mirrorUserConfig s.user)⟩,
            some (.applied restartRequired))
        | (daemon, response) => (⟨daemon, s.user⟩, some response) :=
  rfl

lemma step_form (windows : Bool) (s : Copies) (form : SettingsForm) :
    s.step windows (.form form) =
      form.maxMb.elim (s, none) fun maxMb =>
        (⟨(s.daemon.set windows (form.request maxMb)).1,
          mirrorUserConfig s.user (form.mirror maxMb)⟩,
          some (s.daemon.set windows (form.request maxMb)).2) := by
  unfold step
  dsimp only
  cases form.maxMb with
  | none => rfl
  | some maxMb => rfl

/-- The step of an action that the daemon applies. -/
lemma step_settings (windows : Bool) {action : SettingsAction} {update : ConfigUpdate}
    (hu : action.request s.daemon.config = some update) :
    (s.step windows (.settings action)).1.daemon = (s.daemon.set windows update).1 ∧
      (s.step windows (.settings action)).1.user =
        if update.Accepted s.daemon.config (.ok ()) then
          (action.mirror s.daemon.config).elim s.user (mirrorUserConfig s.user)
        else s.user := by
  have hstep : s.step windows (.settings action) =
      match s.daemon.set windows update with
      | (daemon, .applied restartRequired) =>
        (⟨daemon, (action.mirror s.daemon.config).elim s.user (mirrorUserConfig s.user)⟩,
          some (.applied restartRequired))
      | (daemon, response) => (⟨daemon, s.user⟩, some response) := by
    simp only [step_action, hu]
  rcases hset : s.daemon.set windows update with ⟨daemon, response⟩
  rw [hstep, hset]
  split_ifs with haccepted
  · obtain ⟨-, restartRequired, hresponse⟩ :=
      ConfigFile.set_of_accepted windows haccepted
    rw [hset] at hresponse
    obtain rfl : response = .applied restartRequired := hresponse
    exact ⟨rfl, rfl⟩
  · obtain ⟨-, message, hresponse⟩ :=
      ConfigFile.set_of_not_accepted windows haccepted
    rw [hset] at hresponse
    obtain rfl : response = .error message := hresponse
    exact ⟨rfl, rfl⟩

/-- What is not mirrored, an import or a press of the auto-connect switch, is applied. -/
lemma accepted_of_not_mirrored {file : ConfigFile} {action : SettingsAction}
    {update : ConfigUpdate} (hu : action.request file.config = some update)
    (hm : action.mirror file.config = none) : update.Accepted file.config (.ok ()) := by
  rw [ConfigUpdate.accepted_iff, and_iff_left rfl]
  have hvalid := Config.validate_iff.mp file.valid
  cases action with
  | setRole | setEdgeMode | setReverseScroll | applyAutoDiscover | writeArrangement => cases hm
  | applyAutoConnect wanted =>
    cases wanted with
    | false =>
      obtain rfl := Option.some.inj hu
      refine ⟨by simp [ConfigUpdate.refusal, onlyAutoConnect, writeBack], ?_⟩
      rw [Config.validate_iff]
      simp_all [ConfigUpdate.applied, onlyAutoConnect, writeBack, Text.trim_trim]
    | true =>
      obtain ⟨address, hc, rfl⟩ := Option.map_eq_some_iff.mp hu
      refine ⟨by simp_all [ConfigUpdate.refusal, onlyAutoConnect, writeBack], ?_⟩
      rw [Config.validate_iff]
      simp_all [ConfigUpdate.applied, onlyAutoConnect, writeBack, Text.trim_trim]
  | importLayout layout =>
    rw [SettingsAction.request, Option.ite_none_right_eq_some] at hu
    obtain ⟨hlayout, hu⟩ := hu
    obtain rfl := Option.some.inj hu
    replace hlayout := Layout.validate_of_isOk hlayout
    refine ⟨by simp [ConfigUpdate.refusal, onlyAutoConnect, writeBack, hlayout], ?_⟩
    rw [Config.validate_iff]
    simp_all [ConfigUpdate.applied, onlyAutoConnect, writeBack, Text.trim_trim]

/-- What is applied and not mirrored leaves them agreed if it changed nothing. -/
lemma agrees_not_mirrored_iff {action : SettingsAction} {update : ConfigUpdate} (hs : s.Agree)
    (hu : action.request s.daemon.config = some update)
    (hm : action.mirror s.daemon.config = none) :
    (update.applied s.daemon.config).Agrees s.user.config ↔ s.Even (.settings action) := by
  obtain ⟨h1, h2, h3, h4, h5, h6, h7, h8, h9, h10⟩ := hs
  rw [Config.agrees_iff]
  cases action with
  | setRole | setEdgeMode | setReverseScroll | applyAutoDiscover | writeArrangement => cases hm
  | applyAutoConnect wanted =>
    cases wanted with
    | false =>
      obtain rfl := Option.some.inj hu
      simp [ConfigUpdate.applied, onlyAutoConnect, writeBack, Even, *]
    | true =>
      obtain ⟨address, hc, rfl⟩ := Option.map_eq_some_iff.mp hu
      simp [ConfigUpdate.applied, onlyAutoConnect, writeBack, Even, *]
  | importLayout layout =>
    rw [SettingsAction.request, Option.ite_none_right_eq_some] at hu
    obtain ⟨hlayout, hu⟩ := hu
    obtain rfl := Option.some.inj hu
    have hvalid := Layout.validate_of_isOk hlayout
    simp [ConfigUpdate.applied, onlyAutoConnect, writeBack, Even, *, and_comm]

/-- No request, no change. -/
lemma even_of_no_request {action : SettingsAction}
    (hu : action.request s.daemon.config = none) : s.Even (.settings action) := by
  cases action with
  | setRole | setEdgeMode | setReverseScroll | applyAutoDiscover | writeArrangement => trivial
  | applyAutoConnect wanted =>
    cases wanted with
    | false => cases hu
    | true =>
      intro h
      rw [SettingsAction.request, Option.map_eq_none_iff] at hu
      rw [hu] at h
      cases h rfl
  | importLayout layout =>
    intro h
    rw [SettingsAction.request, if_pos (by rw [h]; rfl)] at hu
    cases hu

lemma even_of_mirrored {action : SettingsAction} {mirror : Mirror}
    (hm : action.mirror s.daemon.config = some mirror) : s.Even (.settings action) := by
  cases action with
  | setRole | setEdgeMode | setReverseScroll | applyAutoDiscover | writeArrangement => trivial
  | applyAutoConnect | importLayout => cases hm

lemma staysAgreed_settings_iff (hs : s.Agree) (action : SettingsAction) :
    s.StaysAgreed windows (.settings action) ↔ s.Even (.settings action) := by
  rcases hu : action.request s.daemon.config with _ | update
  · refine iff_of_true ?_ (even_of_no_request hu)
    rw [StaysAgreed, step_action, hu]
    exact hs
  obtain ⟨hdaemon, huser⟩ := step_settings windows hu
  rw [StaysAgreed, Agree, hdaemon, huser]
  rcases hm : action.mirror s.daemon.config with _ | mirror
  · have haccepted := accepted_of_not_mirrored hu hm
    rw [if_pos haccepted, (ConfigFile.set_of_accepted windows haccepted).1]
    exact agrees_not_mirrored_iff hs hu hm
  · refine iff_of_true ?_ (even_of_mirrored hm)
    split_ifs with haccepted
    · have hname := (Config.validate_iff.mp s.daemon.valid).1.1
      have hagrees := agrees_applied hs hname hu hm
      obtain ⟨hport, haddress⟩ := mirror.applied_port s.user.config
      have hne : (mirror.applied s.user.config).listenPort ≠ 0 := by
        rw [hport]
        exact s.user.listenPort_ne_zero
      have hvalid := hagrees.validate (ConfigUpdate.accepted_iff.mp haccepted).2.1 hne haddress
      rw [(ConfigFile.set_of_accepted windows haccepted).1, Option.elim_some, mirrorUserConfig,
        ConfigFile.save_of_valid hvalid]
      exact hagrees
    · rw [(ConfigFile.set_of_not_accepted windows haccepted).1]
      exact hs

end Copies

/-! ### The form, one at a time -/

namespace SettingsForm

variable {form : SettingsForm} {maxMb : UInt32}

lemma maxMb_fits (h : form.maxMb = some maxMb) :
    ¬(maxMb = 0 ∨ maxClipboardMaxMb < maxMb) := by
  unfold SettingsForm.maxMb at h
  split at h
  · cases h
  · rename_i mb _
    rw [Option.ite_none_right_eq_some] at h
    obtain ⟨hmb, h⟩ := h
    obtain rfl := Option.some.inj h
    have hmax : maxClipboardMaxMb.toUInt64 = 16 := by decide
    rw [hmax, UInt64.le_iff_toNat_le, UInt64.le_iff_toNat_le] at hmb
    simp only [← UInt32.toNat_inj, UInt32.lt_iff_toNat_lt, UInt64.toNat_toUInt32,
      maxClipboardMaxMb] at *
    have hone : (1 : UInt64).toNat = 1 := rfl
    have hsixteen : (16 : UInt64).toNat = 16 := rfl
    have hzero : (0 : UInt32).toNat = 0 := rfl
    have hcap : (16 : UInt32).toNat = 16 := rfl
    omega

/-- What the daemon makes of the form. -/
lemma accepted_iff (file : ConfigFile) (hmax : ¬(maxMb = 0 ∨ maxClipboardMaxMb < maxMb)) :
    (form.request maxMb).Accepted file.config (.ok ()) ↔ ¬form.Refused ∧ ¬form.NameUnfit := by
  obtain ⟨-, hport, -, -, -, hlayout⟩ := Config.validate_iff.mp file.valid
  rw [ConfigUpdate.accepted_iff, and_iff_left rfl, Config.validate_iff]
  push Not at hmax
  by_cases haddress : (Text.trim form.autoAddress).isEmpty = true
  · simp [ConfigUpdate.refusal, ConfigUpdate.applied, request, Refused, NameUnfit, Text.trim_trim,
      hport, hlayout, hmax, haddress]
  · simpa [ConfigUpdate.refusal, ConfigUpdate.applied, request, Refused, NameUnfit, Text.trim_trim,
      hport, hlayout, hmax, haddress] using and_right_comm

/-- What the user's file makes of it: a blank name is passed over. -/
lemma valid_mirror_iff (form : SettingsForm) (file : ConfigFile)
    (hmax : ¬(maxMb = 0 ∨ maxClipboardMaxMb < maxMb)) :
    ((form.mirror maxMb).applied file.config).validate = .ok () ↔ ¬form.NameUnfit := by
  obtain ⟨hname, hport, -, -, -, hlayout⟩ := Config.validate_iff.mp file.valid
  rw [Config.validate_iff]
  by_cases hblank : (Text.trim form.deviceName).isEmpty = true
  · have hfit : ¬form.NameUnfit := by
      rw [String.isEmpty_iff] at hblank
      rw [NameUnfit, hblank]
      decide
    simp_all [Mirror.applied, mirror]
  · simp_all [Mirror.applied, mirror, NameUnfit, Text.trim_trim]

end SettingsForm

namespace Copies

/-- Beside an agreeing configuration, the mirrored form agrees if it says the same. -/
lemma agrees_mirror_iff {daemon user : Config} (h : daemon.Agrees user) (form : SettingsForm)
    (maxMb : UInt32) :
    daemon.Agrees ((form.mirror maxMb).applied user) ↔ form.Says maxMb user := by
  rw [Config.agrees_iff, SettingsForm.says_iff]
  obtain ⟨h1, h2, h3, h4, h5, h6, h7, h8, h9, h10⟩ := h
  by_cases hblank : (Text.trim form.deviceName).isEmpty = true
  · simp [Mirror.applied, SettingsForm.mirror, *]
  · simp [Mirror.applied, SettingsForm.mirror, *]

/-- The form that the daemon takes, it takes as the user's file does. -/
lemma agrees_form {daemon user : Config} (h : daemon.Agrees user) {form : SettingsForm}
    (hname : (Text.trim form.deviceName).isEmpty = false) (maxMb : UInt32) :
    ((form.request maxMb).applied daemon).Agrees ((form.mirror maxMb).applied user) := by
  rw [Config.agrees_iff]
  obtain ⟨h1, h2, h3, h4, h5, h6, h7, h8, h9, h10⟩ := h
  simp [Mirror.applied, SettingsForm.mirror, ConfigUpdate.applied, SettingsForm.request, *]

lemma staysAgreed_form_iff (hs : s.Agree) (form : SettingsForm) :
    s.StaysAgreed windows (.form form) ↔ s.Even (.form form) := by
  rcases hmb : form.maxMb with _ | maxMb
  · refine iff_of_true ?_ fun maxMb h => absurd (hmb.symm.trans h) (by simp)
    rw [StaysAgreed, step_form, hmb]
    exact hs
  have hfits := SettingsForm.maxMb_fits hmb
  have heven : s.Even (.form form) ↔
      (form.Refused → form.NameUnfit ∨ form.Says maxMb s.user.config) := by
    simp [Even, hmb]
  have hstep : s.StaysAgreed windows (.form form) ↔
      (s.daemon.set windows (form.request maxMb)).1.config.Agrees
        (mirrorUserConfig s.user (form.mirror maxMb)).config := by
    rw [StaysAgreed, step_form, hmb]
    exact Iff.rfl
  rw [heven, hstep, mirrorUserConfig]
  by_cases hunfit : form.NameUnfit
  · -- neither takes the name
    have hrefused : ¬(form.request maxMb).Accepted s.daemon.config (.ok ()) :=
      fun h => ((SettingsForm.accepted_iff s.daemon hfits).mp h).2 hunfit
    have hinvalid := (form.valid_mirror_iff s.user hfits).not.mpr
      (not_not.mpr hunfit)
    rw [(ConfigFile.set_of_not_accepted windows hrefused).1, ConfigFile.save_of_invalid hinvalid]
    exact iff_of_true hs fun _ => Or.inl hunfit
  · have hvalid := (form.valid_mirror_iff s.user hfits).mpr hunfit
    rw [ConfigFile.save_of_valid hvalid]
    by_cases hrefused : form.Refused
    · -- the user's file alone takes the form
      have hnot : ¬(form.request maxMb).Accepted s.daemon.config (.ok ()) :=
        fun h => ((SettingsForm.accepted_iff s.daemon hfits).mp h).1 hrefused
      rw [(ConfigFile.set_of_not_accepted windows hnot).1, agrees_mirror_iff hs]
      simp [hrefused, hunfit]
    · have haccepted := (SettingsForm.accepted_iff s.daemon hfits).mpr ⟨hrefused, hunfit⟩
      have hname : (Text.trim form.deviceName).isEmpty = false := by
        rw [← Bool.not_eq_true]
        exact fun h => hrefused (Or.inl h)
      rw [(ConfigFile.set_of_accepted windows haccepted).1]
      exact iff_of_true (agrees_form hs hname maxMb) fun h => absurd h hrefused

lemma staysAgreed_iff (hs : s.Agree) (change : Change) :
    s.StaysAgreed windows change ↔ s.Even change := by
  cases change with
  | settings action => exact staysAgreed_settings_iff hs action
  | form form => exact staysAgreed_form_iff hs form

end Copies

end

/-- **Two configurations**. However settings are changed one after the other, the user's
configuration agrees with the daemon's after every change exactly if no layout is imported that is
not the daemon's already, and no form that the daemon refuses for its blank name, or for its address
under a role that only receives, would change the user's. -/
theorem copies_agree_iff (windows : Bool) {s : Copies} (h : s.Agree) (changes : List Change) :
    Trace.Each (fun m => (s.after windows m).StaysAgreed windows) changes ↔
      Trace.Each (fun m => (s.after windows m).Even) changes := by
  refine Trace.each_congr fun m change hm => Copies.staysAgreed_iff ?_ change
  refine Trace.invariant (I := fun _ (s : Copies) => s.Agree) h ?_ hm
  exact fun m change hs hchange => (Copies.staysAgreed_iff hs change).mpr hchange

/-! ### A desk -/

lemma Copies.agree_same (file : ConfigFile) : Copies.Agree ⟨file, file⟩ :=
  ⟨rfl, rfl, rfl, rfl, rfl, rfl, rfl, rfl, rfl, rfl⟩

def deskFile : ConfigFile := ⟨Config.fresh "desk", by decide +kernel⟩

/-- The form of a desk that is to be controlled only, with an address left in it. -/
def receiverForm : SettingsForm where
  allowLockScreen := false
  modeIndex := 2
  deviceName := "desk"
  autoAddress := "192.168.1.9:42110"
  clipboardEnabled := true
  clipboardMaxMb := "2"

theorem desk_copies_agree_iff :
    let changes : List Change := [.settings (.setReverseScroll true), .form receiverForm]
    Trace.Each (fun m => (Copies.after false ⟨deskFile, deskFile⟩ m).StaysAgreed false) changes ↔
      Trace.Each (fun m => (Copies.after false ⟨deskFile, deskFile⟩ m).Even) changes :=
  copies_agree_iff false (Copies.agree_same deskFile) _

/-- The daemon refuses the form, and the user's configuration has its role; an imported layout is
the daemon's alone. -/
theorem form_and_import_part_copies :
    Copies.Agree ⟨deskFile, deskFile⟩ ∧
      ¬Trace.Each (fun m => (Copies.after false ⟨deskFile, deskFile⟩ m).StaysAgreed false)
        [.form receiverForm] ∧
      ¬Trace.Each (fun m => (Copies.after false ⟨deskFile, deskFile⟩ m).StaysAgreed false)
        [.settings (.importLayout
          (.pairDefault "desk" "laptop" (.ofList (.replicate 64 'a'))))] := by
  refine ⟨Copies.agree_same deskFile, fun h => ?_, fun h => ?_⟩
  · have hmode := (Trace.each_singleton.mp h).mode
    exact absurd hmode (by decide +kernel)
  · have hlayout := (Trace.each_singleton.mp h).layout
    exact absurd hlayout (by decide +kernel)

end TheKvm

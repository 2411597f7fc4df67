import TheKvm.Core.Layout
import TheKvm.Protocol.Frame
import TheKvm.Protocol.PeerBook

/-!
The configuration of a daemon, its checks, and its text.

The checks bound the name of the device and the number of screens. The address to connect to, the
names of the screens and the blanks around the device's name have no bound of their own.
-/

namespace TheKvm

def maxClipboardMaxMb : UInt32 := 16

inductive TransportProtocol
  | quic | udp
  deriving DecidableEq

structure Config where
  deviceName : String
  listenPort : UInt16
  mode : Mode
  transport : TransportProtocol
  edgeMode : EdgeMode
  layout : Layout
  allowLockScreenControl : Bool
  autoConnectAddress : Option String
  clipboardEnabled : Bool
  clipboardMaxMb : UInt32
  reverseScroll : Bool
  autoDiscover : Bool
  doubleEdgeStyle : DoubleEdgeStyle
  deriving DecidableEq

def Config.validate (config : Config) : Except String Unit :=
  let deviceName := Text.trim config.deviceName
  if deviceName.isEmpty then .error "device name cannot be empty"
  else if maxDeviceNameBytes < Text.len deviceName then
    .error "device name exceeds 128 UTF-8 bytes"
  else if deviceName.toList.any Text.isControl then
    .error "device name cannot contain control characters"
  else if config.listenPort = 0 then .error "listen port must be non-zero"
  else if config.autoConnectAddress.any fun address => (Text.trim address).isEmpty then
    .error "auto-connect address cannot be empty"
  else if config.mode = .clientOnly ∧ config.autoConnectAddress.isSome then
    .error "receiver-only mode cannot have an auto-connect controller peer"
  else if config.clipboardMaxMb = 0 ∨ maxClipboardMaxMb < config.clipboardMaxMb then
    .error "clipboard limit must be 1..=16 MB"
  else config.layout.validate

/-- What the check asks for. -/
lemma Config.validate_iff {config : Config} : config.validate = .ok () ↔
    ((Text.trim config.deviceName).isEmpty = false ∧
      Text.len (Text.trim config.deviceName) ≤ maxDeviceNameBytes ∧
      (Text.trim config.deviceName).toList.any Text.isControl = false) ∧
    config.listenPort ≠ 0 ∧
    (config.autoConnectAddress.any fun address => (Text.trim address).isEmpty) = false ∧
    ¬(config.mode = .clientOnly ∧ config.autoConnectAddress.isSome) ∧
    ¬(config.clipboardMaxMb = 0 ∨ maxClipboardMaxMb < config.clipboardMaxMb) ∧
    config.layout.validate = .ok () := by
  unfold Config.validate
  simp only
  split_ifs <;> simp_all

lemma Layout.validate_of_isOk {layout : Layout} (h : layout.validate.isOk = true) :
    layout.validate = .ok () := by
  cases hvalidate : layout.validate with
  | ok => rfl
  | error message =>
    rw [hvalidate] at h
    cases h

/-! ### What the checks say -/

lemma escapedLen_debug (id : ScreenId) : Json.escapedLen id.debug ≤ 20 := by
  have hdigits := decimalLen_uint32_le id.val
  have htext : Json.escapedLen (toString id.val) = Json.decimalLen id.val.toNat :=
    Json.escapedLen_toString id.val.toNat
  rw [ScreenId.debug, Json.escapedLen_append, Json.escapedLen_append, htext]
  simp
  omega

lemma escapedLen_int32 (n : Int32) : Json.escapedLen (toString n) ≤ 11 :=
  (Json.escapedLen_toString n.toInt).trans_le (decimalLen_int32_le n)

lemma Layout.validateScreens_error {ids : List ScreenId} {positions : List (Int32 × Int32)}
    {screens : List Screen} {message : String}
    (h : validateScreens ids positions screens = .error message) :
    Json.escapedLen message ≤ 64 := by
  induction screens generalizing ids positions with
  | nil => cases h
  | cons screen rest ih =>
    have hid := escapedLen_debug screen.id
    have hx := escapedLen_int32 screen.x
    have hy := escapedLen_int32 screen.y
    rw [validateScreens] at h
    split_ifs at h
    · obtain rfl := Except.error.inj h
      simp [Json.escapedLen_append]
      omega
    · obtain rfl := Except.error.inj h
      simp [Json.escapedLen_append]
      omega
    · obtain rfl := Except.error.inj h
      simp [Json.escapedLen_append]
      omega
    · obtain rfl := Except.error.inj h
      simp [Json.escapedLen_append]
      omega
    · exact ih h

/-- What the checks of a layout say is short, whatever the layout. -/
lemma Layout.validate_error {layout : Layout} {message : String}
    (h : layout.validate = .error message) : Json.escapedLen message ≤ 64 := by
  unfold validate at h
  split_ifs at h
  · obtain rfl := Except.error.inj h
    decide
  · split at h
    · rename_i herror
      obtain rfl := Except.error.inj h
      exact validateScreens_error herror
    · split at h
      · cases h
      · rename_i selfScreen _
        have hid := escapedLen_debug selfScreen
        split_ifs at h
        obtain rfl := Except.error.inj h
        simp [Json.escapedLen_append]
        omega

lemma Config.validate_error {config : Config} {message : String}
    (h : config.validate = .error message) : Json.escapedLen message ≤ 64 := by
  unfold validate at h
  simp only at h
  split_ifs at h
  iterate 7
    obtain rfl := Except.error.inj h
    decide
  exact Layout.validate_error h

/-! ### JSON -/

def TransportProtocol.toJson : TransportProtocol → Json
  | .quic => .str "Quic"
  | .udp => .str "Udp"

def EdgeMode.toJson : EdgeMode → Json
  | .single => .str "Single"
  | .double => .str "Double"

def DoubleEdgeStyle.toJson : DoubleEdgeStyle → Json
  | .mirror => .str "Mirror"
  | .fixedLeft => .str "FixedLeft"
  | .fixedRight => .str "FixedRight"

def ScreenId.toJson (id : ScreenId) : Json := .nat id.val.toNat

def Screen.toJson (screen : Screen) : Json :=
  .obj [("id", screen.id.toJson), ("name", .str screen.name), ("x", .num screen.x.toInt),
    ("y", .num screen.y.toInt), ("width", .nat screen.width), ("height", .nat screen.height),
    ("peer_fingerprint", .option .str screen.peerFingerprint)]

def Layout.toJson (layout : Layout) : Json :=
  .obj [("screens", .arr (layout.screens.map Screen.toJson)),
    ("self_screen", .option ScreenId.toJson layout.selfScreen)]

def Config.toJson (config : Config) : Json :=
  .obj [("device_name", .str config.deviceName), ("listen_port", .nat config.listenPort.toNat),
    ("mode", config.mode.toJson), ("transport", config.transport.toJson),
    ("edge_mode", config.edgeMode.toJson), ("layout", config.layout.toJson),
    ("allow_lock_screen_control", .bool config.allowLockScreenControl),
    ("auto_connect_address", .option .str config.autoConnectAddress),
    ("clipboard_enabled", .bool config.clipboardEnabled),
    ("clipboard_max_mb", .nat config.clipboardMaxMb.toNat),
    ("reverse_scroll", .bool config.reverseScroll), ("auto_discover", .bool config.autoDiscover),
    ("double_edge_style", config.doubleEdgeStyle.toJson)]

/-! ### The bytes that are left for strings -/

/-- The text of a string that may be absent. -/
def optionalLen (s : Option String) : ℕ := (Json.option .str s).size

/-- The numbers are what names of fields and punctuation take. -/
def Screen.textLen (screen : Screen) : ℕ :=
  66 + Json.decimalLen screen.id.val.toNat + Json.escapedLen screen.name +
    Json.decimalLen screen.x.toInt + Json.decimalLen screen.y.toInt +
    Json.decimalLen screen.width + Json.decimalLen screen.height +
    optionalLen screen.peerFingerprint

def Layout.textLen (layout : Layout) : ℕ :=
  27 + Json.listed (layout.screens.map Screen.textLen) +
    (Json.option ScreenId.toJson layout.selfScreen).size

def Config.textLen (config : Config) : ℕ :=
  227 + Json.escapedLen config.deviceName + Json.decimalLen config.listenPort.toNat +
    config.mode.toJson.size + config.transport.toJson.size + config.edgeMode.toJson.size +
    config.layout.textLen + (Json.bool config.allowLockScreenControl).size +
    optionalLen config.autoConnectAddress + (Json.bool config.clipboardEnabled).size +
    Json.decimalLen config.clipboardMaxMb.toNat + (Json.bool config.reverseScroll).size +
    (Json.bool config.autoDiscover).size + config.doubleEdgeStyle.toJson.size

lemma Screen.size_toJson (screen : Screen) : screen.toJson.size = screen.textLen := by
  simp [Screen.toJson, Screen.textLen, ScreenId.toJson, optionalLen]
  omega

lemma Layout.size_toJson (layout : Layout) : layout.toJson.size = layout.textLen := by
  have hscreens : (Json.arr (layout.screens.map Screen.toJson)).size =
      Json.listed (layout.screens.map Screen.textLen) := by
    rw [Json.size_arr_map]
    simp only [Screen.size_toJson]
  simp [Layout.toJson, Layout.textLen, hscreens, -Json.size_arr]
  omega

lemma Config.size_toJson (config : Config) : config.toJson.size = config.textLen := by
  simp [Config.toJson, Config.textLen, Layout.size_toJson, optionalLen]
  omega

end TheKvm

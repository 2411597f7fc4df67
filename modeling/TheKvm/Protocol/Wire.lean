import TheKvm.Core.Event
import TheKvm.Lib.Json

/-!
Wire messages: their checks and their JSON.

The JSON is what serde derives: a struct is an object in field order, a variant is tagged
with its name, an absent option is `null`.
-/

namespace TheKvm

/-! ### Errors -/

inductive ErrorKind
  | invalidInput | invalidData | unexpectedEof
  deriving DecidableEq

/-- `std::io::Error`. -/
structure IoError where
  kind : ErrorKind
  message : String
  deriving DecidableEq

abbrev IoResult := Except IoError

/-- Fail with `InvalidInput` if the check finds fault. -/
def rejectIf (fault : Bool) (message : String) : IoResult Unit :=
  if fault then .error ⟨.invalidInput, message⟩ else .ok ()

section

variable {ε α β : Type}

lemma bind_ok {x : Except ε α} {f : α → Except ε β} {b : β} :
    (x >>= f) = .ok b ↔ ∃ a, x = .ok a ∧ f a = .ok b := by
  cases x with
  | error e => simp [bind, Except.bind]
  | ok a => simp [bind, Except.bind]

/-- A check before the rest. -/
lemma check_ok {x : Except ε Unit} {y : Except ε β} {b : β} :
    (x >>= fun _ => y) = .ok b ↔ x = .ok () ∧ y = .ok b := by
  rw [bind_ok]
  exact ⟨fun ⟨_, hx, hy⟩ => ⟨hx, hy⟩, fun ⟨hx, hy⟩ => ⟨(), hx, hy⟩⟩

end

@[simp] lemma rejectIf_ok {fault : Bool} {message : String} :
    rejectIf fault message = .ok () ↔ fault = false := by
  cases fault <;> simp [rejectIf]

/-! ### Messages -/

def maxFrameSize : ℕ := 64 * 1024

def maxNodeNameBytes : ℕ := 128

def maxRejectReasonBytes : ℕ := 1024

def maxClipboardTextBytes : ℕ := 48 * 1024

def maxClipboardUpdateBytes : ℕ := 16 * 1024 * 1024

inductive Mode
  | bidirectional | serverClient | clientOnly
  deriving DecidableEq

structure ScreenGeometry where
  screenId : UInt32
  width : UInt32
  height : UInt32
  deriving DecidableEq

structure Hello where
  nodeName : String
  mode : Mode
  lockScreenRequested : Bool
  clipboardEnabled : Bool
  screenGeometry : Option ScreenGeometry
  smoothScroll : Bool
  pinchZoom : Bool
  motionLane : Bool
  linkId : Option UInt64
  udpMotion : Bool
  deriving DecidableEq

inductive WireMessage
  | hello (hello : Hello)
  | pairRequest (nodeName fingerprintHex : String) (pairingCode : Option String)
  | pairChallenge (nodeName fingerprintHex : String) (verificationCode : Option String)
      (preApproved : Bool)
  | pairConfirm (serverFingerprintHex : String)
  | accepted (lockScreenEnabled clipboardEnabled : Bool) (screenGeometry : Option ScreenGeometry)
      (smoothScroll pinchZoom motionLane udpMotion : Bool)
  | input (packet : InputPacket)
  | stateSync (state : InputState)
  | clipboardText (revision : UInt64) (text : String)
  | clipboardImage (revision : UInt64) (width height : UInt32) (pngBase64 : String)
  | clipboardStart (revision totalBytes : UInt64) (chunks : UInt32)
  | clipboardImageStart (revision totalBytes : UInt64) (chunks width height : UInt32)
  | clipboardChunk (revision : UInt64) (index : UInt32) (data : String)
  | clipboardImageChunk (revision : UInt64) (index : UInt32) (data : String)
  | clipboardEnd (revision : UInt64)
  | clipboardImageEnd (revision : UInt64)
  | releaseAll
  | linkEnded (linkId : Option UInt64)
  | ping (nonce : UInt64)
  | pong (nonce : UInt64)
  | pointerHandoff (screenId : UInt32) (targetName : String) (x y : UInt32)
      (screenGeometry : Option ScreenGeometry)
  | handoffRequest (screenId : UInt32) (targetName : String) (x y : UInt32) (dx dy : Int32)
      (screenGeometry : Option ScreenGeometry)
  | reject (reason : String)
  deriving DecidableEq

/-! ### Checks -/

/-- `u8::is_ascii_digit`. -/
def isAsciiDigit (byte : UInt8) : Bool := 0x30 ≤ byte && byte ≤ 0x39

/-- `u8::is_ascii_hexdigit`. -/
def isAsciiHexdigit (byte : UInt8) : Bool :=
  isAsciiDigit byte || (0x41 ≤ byte && byte ≤ 0x46) || (0x61 ≤ byte && byte ≤ 0x66)

def validateNodeName (name : String) : IoResult Unit :=
  rejectIf
    ((Text.trim name).isEmpty || maxNodeNameBytes < Text.len name ||
      name.toList.any Text.isControl)
    "node name is empty, too long, or contains control characters"

def validateFingerprint (fingerprint : String) : IoResult Unit :=
  rejectIf
    (Text.len fingerprint != 64 || !(Text.utf8 fingerprint.toList).all isAsciiHexdigit)
    "fingerprint must contain 64 hexadecimal characters"

def validateImageDims (width height : UInt32) : IoResult Unit :=
  rejectIf (width == 0 || height == 0 || 16384 < width || 16384 < height)
    "clipboard image dimensions are empty or exceed maximum size"

/-- The typed code of a `PairRequest`: lenient, the station checks its digits. -/
def validatePairingCode (code : String) : IoResult Unit :=
  rejectIf (16 < Text.len code || code.toList.any Text.isControl)
    "pairing code is too long or contains control characters"

def validateVerificationCode (code : String) : IoResult Unit :=
  rejectIf (Text.len code != 6 || !(Text.utf8 code.toList).all isAsciiDigit)
    "pairing verification code must contain exactly six digits"

def validateReason (reason : String) : IoResult Unit :=
  rejectIf (maxRejectReasonBytes < Text.len reason || reason.toList.any Text.isControl)
    "rejection reason is empty, too long, or contains control characters"

def validateGeometry (geometry : ScreenGeometry) : IoResult Unit := do
  rejectIf (geometry.width == 0 || geometry.height == 0)
    "screen geometry cannot have zero width or height"
  rejectIf (1000000 < geometry.width || 1000000 < geometry.height)
    "screen geometry exceeds maximum dimension"

/-- The chunks of a clipboard text or image cover its announced total. -/
def chunksCover (totalBytes : UInt64) (chunks : UInt32) : Bool :=
  (totalBytes.toNat + (maxClipboardTextBytes - 1)) / maxClipboardTextBytes ≤ chunks.toNat

/-- A check of what is there. -/
def checkSome {α : Type} (check : α → IoResult Unit) : Option α → IoResult Unit
  | some a => check a
  | none => .ok ()

/-- The names, fingerprints, codes and reasons, and the geometry still to be checked. -/
def validateNames : WireMessage → IoResult (Option ScreenGeometry)
  | .hello hello => do
    validateNodeName hello.nodeName
    return hello.screenGeometry
  | .accepted _ _ screenGeometry _ _ _ _ => return screenGeometry
  | .pointerHandoff _ _ _ _ screenGeometry => return screenGeometry
  | .handoffRequest _ _ _ _ _ _ screenGeometry => return screenGeometry
  | .pairRequest nodeName fingerprintHex pairingCode => do
    validateNodeName nodeName
    validateFingerprint fingerprintHex
    checkSome validatePairingCode pairingCode
    return none
  | .pairChallenge nodeName fingerprintHex verificationCode _ => do
    validateNodeName nodeName
    validateFingerprint fingerprintHex
    checkSome validateVerificationCode verificationCode
    return none
  | .pairConfirm serverFingerprintHex => do
    validateFingerprint serverFingerprintHex
    return none
  | .reject reason => do
    validateReason reason
    return none
  | _ => return none

/-- The caps on clipboard payloads and their headers. -/
def validateClipboard : WireMessage → IoResult Unit
  | .clipboardText _ text =>
    rejectIf (maxClipboardTextBytes < Text.len text) "clipboard text exceeds maximum size"
  | .clipboardImage _ width height pngBase64 => do
    rejectIf (maxClipboardTextBytes < Text.len pngBase64)
      "clipboard image exceeds maximum single-shot size"
    validateImageDims width height
  | .clipboardChunk _ _ data =>
    rejectIf (maxClipboardTextBytes < Text.len data) "clipboard chunk exceeds maximum size"
  | .clipboardImageChunk _ _ data =>
    rejectIf (maxClipboardTextBytes < Text.len data) "clipboard chunk exceeds maximum size"
  | .clipboardStart _ totalBytes chunks => do
    rejectIf (maxClipboardUpdateBytes < totalBytes.toNat || chunks == 0)
      "clipboard transfer header is empty or exceeds maximum size"
    rejectIf (!chunksCover totalBytes chunks)
      "clipboard transfer header undercounts its chunks"
  | .clipboardImageStart _ totalBytes chunks width height => do
    rejectIf (maxClipboardUpdateBytes < totalBytes.toNat || chunks == 0)
      "clipboard image transfer header is empty or exceeds maximum size"
    validateImageDims width height
    rejectIf (!chunksCover totalBytes chunks)
      "clipboard image transfer header undercounts its chunks"
  | _ => .ok ()

def validateMessage (message : WireMessage) : IoResult Unit := do
  let geometry ← validateNames message
  checkSome validateGeometry geometry
  validateClipboard message

/-! ### JSON -/

def Mode.toJson : Mode → Json
  | .bidirectional => .str "Bidirectional"
  | .serverClient => .str "ServerClient"
  | .clientOnly => .str "ClientOnly"

def ScreenGeometry.toJson (geometry : ScreenGeometry) : Json :=
  .obj [("screen_id", .nat geometry.screenId.toNat), ("width", .nat geometry.width.toNat),
    ("height", .nat geometry.height.toNat)]

def Hello.toJson (hello : Hello) : Json :=
  .obj [("node_name", .str hello.nodeName), ("mode", hello.mode.toJson),
    ("lock_screen_requested", .bool hello.lockScreenRequested),
    ("clipboard_enabled", .bool hello.clipboardEnabled),
    ("screen_geometry", .option ScreenGeometry.toJson hello.screenGeometry),
    ("smooth_scroll", .bool hello.smoothScroll), ("pinch_zoom", .bool hello.pinchZoom),
    ("motion_lane", .bool hello.motionLane),
    ("link_id", .option (fun id => .nat id.toNat) hello.linkId),
    ("udp_motion", .bool hello.udpMotion)]

def MouseButton.toJson : MouseButton → Json
  | .left => .str "Left"
  | .right => .str "Right"
  | .middle => .str "Middle"
  | .back => .str "Back"
  | .forward => .str "Forward"

def InputEvent.toJson : InputEvent → Json
  | .key event =>
    .tagged "Key" (.obj [("usage", .nat event.usage.toNat), ("pressed", .bool event.pressed),
      ("repeat", .bool event.repeated)])
  | .mouseMove dx dy => .tagged "MouseMove" (.obj [("dx", .num dx.toInt), ("dy", .num dy.toInt)])
  | .mouseButton button pressed =>
    .tagged "MouseButton" (.obj [("button", button.toJson), ("pressed", .bool pressed)])
  | .wheel delta =>
    .tagged "Wheel" (.obj [("x", .num delta.x.toInt), ("y", .num delta.y.toInt)])
  | .smoothWheel x y => .tagged "SmoothWheel" (.obj [("x", .num x.toInt), ("y", .num y.toInt)])
  | .pinch delta => .tagged "Pinch" (.obj [("delta", .num delta.toInt)])
  | .pinchEnd => .str "PinchEnd"

def InputPacket.toJson (packet : InputPacket) : Json :=
  .obj [("sequence", .nat packet.sequence.toNat), ("event", packet.event.toJson)]

def InputState.toJson (state : InputState) : Json :=
  .obj [("pressed_keys", .arr (state.pressedKeys.map fun usage => .nat usage.toNat)),
    ("pressed_buttons", .arr (state.pressedButtons.map MouseButton.toJson))]

def WireMessage.toJson : WireMessage → Json
  | .hello message => .tagged "Hello" message.toJson
  | .pairRequest nodeName fingerprintHex pairingCode =>
    .tagged "PairRequest" (.obj [("node_name", .str nodeName),
      ("fingerprint_hex", .str fingerprintHex), ("pairing_code", .option .str pairingCode)])
  | .pairChallenge nodeName fingerprintHex verificationCode preApproved =>
    .tagged "PairChallenge" (.obj [("node_name", .str nodeName),
      ("fingerprint_hex", .str fingerprintHex),
      ("verification_code", .option .str verificationCode), ("pre_approved", .bool preApproved)])
  | .pairConfirm serverFingerprintHex =>
    .tagged "PairConfirm" (.obj [("server_fingerprint_hex", .str serverFingerprintHex)])
  | .accepted lockScreenEnabled clipboardEnabled screenGeometry smoothScroll pinchZoom motionLane
      udpMotion =>
    .tagged "Accepted" (.obj [("lock_screen_enabled", .bool lockScreenEnabled),
      ("clipboard_enabled", .bool clipboardEnabled),
      ("screen_geometry", .option ScreenGeometry.toJson screenGeometry),
      ("smooth_scroll", .bool smoothScroll), ("pinch_zoom", .bool pinchZoom),
      ("motion_lane", .bool motionLane), ("udp_motion", .bool udpMotion)])
  | .input packet => .tagged "Input" packet.toJson
  | .stateSync state => .tagged "StateSync" state.toJson
  | .clipboardText revision text =>
    .tagged "ClipboardText" (.obj [("revision", .nat revision.toNat), ("text", .str text)])
  | .clipboardImage revision width height pngBase64 =>
    .tagged "ClipboardImage" (.obj [("revision", .nat revision.toNat), ("width", .nat width.toNat),
      ("height", .nat height.toNat), ("png_base64", .str pngBase64)])
  | .clipboardStart revision totalBytes chunks =>
    .tagged "ClipboardStart" (.obj [("revision", .nat revision.toNat),
      ("total_bytes", .nat totalBytes.toNat), ("chunks", .nat chunks.toNat)])
  | .clipboardImageStart revision totalBytes chunks width height =>
    .tagged "ClipboardImageStart" (.obj [("revision", .nat revision.toNat),
      ("total_bytes", .nat totalBytes.toNat), ("chunks", .nat chunks.toNat),
      ("width", .nat width.toNat), ("height", .nat height.toNat)])
  | .clipboardChunk revision index data =>
    .tagged "ClipboardChunk" (.obj [("revision", .nat revision.toNat), ("index", .nat index.toNat),
      ("data", .str data)])
  | .clipboardImageChunk revision index data =>
    .tagged "ClipboardImageChunk" (.obj [("revision", .nat revision.toNat),
      ("index", .nat index.toNat), ("data", .str data)])
  | .clipboardEnd revision =>
    .tagged "ClipboardEnd" (.obj [("revision", .nat revision.toNat)])
  | .clipboardImageEnd revision =>
    .tagged "ClipboardImageEnd" (.obj [("revision", .nat revision.toNat)])
  | .releaseAll => .str "ReleaseAll"
  | .linkEnded linkId =>
    .tagged "LinkEnded" (.obj [("link_id", .option (fun id => .nat id.toNat) linkId)])
  | .ping nonce => .tagged "Ping" (.obj [("nonce", .nat nonce.toNat)])
  | .pong nonce => .tagged "Pong" (.obj [("nonce", .nat nonce.toNat)])
  | .pointerHandoff screenId targetName x y screenGeometry =>
    .tagged "PointerHandoff" (.obj [("screen_id", .nat screenId.toNat),
      ("target_name", .str targetName), ("x", .nat x.toNat), ("y", .nat y.toNat),
      ("screen_geometry", .option ScreenGeometry.toJson screenGeometry)])
  | .handoffRequest screenId targetName x y dx dy screenGeometry =>
    .tagged "HandoffRequest" (.obj [("screen_id", .nat screenId.toNat),
      ("target_name", .str targetName), ("x", .nat x.toNat), ("y", .nat y.toNat),
      ("dx", .num dx.toInt), ("dy", .num dy.toInt),
      ("screen_geometry", .option ScreenGeometry.toJson screenGeometry)])
  | .reject reason => .tagged "Reject" (.obj [("reason", .str reason)])

end TheKvm

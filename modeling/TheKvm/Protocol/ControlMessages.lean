import TheKvm.Protocol.Config
import TheKvm.Protocol.Control
import TheKvm.Protocol.ControlFrame

/-!
The requests and responses of the daemon's control protocol, and their JSON.
-/

namespace TheKvm.Control

/-- What `SetConfig` replaces. -/
structure ConfigUpdate where
  deviceName : Option String
  mode : Option Mode
  allowLockScreenControl : Option Bool
  listenPort : Option UInt16
  layout : Option Layout
  autoConnectAddress : Option String
  clearAutoConnect : Bool
  clipboardEnabled : Option Bool
  clipboardMaxMb : Option UInt32
  edgeMode : Option EdgeMode
  transport : Option TransportProtocol
  reverseScroll : Option Bool
  autoDiscover : Option Bool
  doubleEdgeStyle : Option DoubleEdgeStyle
  deriving DecidableEq

/-- One chunk of a local copy. -/
structure ClipboardOffer where
  generation : UInt64
  kind : ClipboardKind
  totalChunks : UInt32
  index : UInt32
  data : String
  width : UInt32
  height : UInt32
  deriving DecidableEq

inductive Request
  | status
  | getConfig
  | pair (address expectedFingerprintHex : String)
  | listPeers
  | unpair (fingerprintHex : String)
  | pinPeer (fingerprintHex : String) (nodeName address : Option String)
  | listPendingPairings
  | approvePairing (fingerprintHex : String)
  | rejectPairing (fingerprintHex : String)
  | listPendingLinks
  | approveLink (fingerprintHex : String) (linkId : Option UInt64)
  | rejectLink (fingerprintHex : String) (linkId : Option UInt64)
  | dropSession (fingerprintHex : String)
  | endLink (linkId : UInt64)
  | notifyPeerEnded (fingerprintHex : String) (linkId : Option UInt64) (address : Option String)
  | disconnectLink (fingerprintHex address : Option String) (linkId : Option UInt64)
  | linkLease (fingerprintHex address : String) (linkId : Option UInt64)
  | linkLeasePing
  | presenceLease
  | presencePing
  | exportIdentity
  | setConfig (update : ConfigUpdate)
  | clipboardPoll (lastSeenRevision : UInt64) (nextIndex waitMs : UInt32)
  | clipboardOffer (offer : ClipboardOffer)
  deriving DecidableEq

structure ActiveSession where
  fingerprintHex : String
  nodeName : String
  address : String
  linkId : Option UInt64
  inputEvents : UInt64
  driving : Bool
  lastInputAgeMs : Option UInt64
  deriving DecidableEq

structure RecentInbound where
  fingerprintHex : String
  nodeName : String
  address : String
  linkId : Option UInt64
  lastSeenSecsAgo : UInt64
  deriving DecidableEq

structure PendingPairing where
  nodeName : String
  fingerprintHex : String
  address : String
  verificationCode : String
  deriving DecidableEq

structure PendingLink where
  nodeName : String
  fingerprintHex : String
  address : String
  linkId : Option UInt64
  deriving DecidableEq

structure DaemonStatus where
  nodeName : String
  fingerprintHex : String
  listenPort : UInt16
  mode : Mode
  allowLockScreenControl : Bool
  autoConnectAddress : Option String
  clipboardEnabled : Bool
  clipboardMaxMb : UInt32
  edgeMode : EdgeMode
  transport : TransportProtocol
  reverseScroll : Bool
  autoDiscover : Bool
  doubleEdgeStyle : DoubleEdgeStyle
  peerCount : ℕ
  activeSessionCount : UInt64
  uptimeSeconds : UInt64
  pairingCode : String
  sessions : List ActiveSession
  peerEndedLinks : List UInt64
  recentInbound : List RecentInbound
  deriving DecidableEq

inductive Response
  | status (status : DaemonStatus)
  | config (config : Config)
  | paired (fingerprintHex : String)
  | peers (peers : List Peer)
  | unpaired (fingerprintHex : String)
  | pendingPairings (pending : List PendingPairing)
  | pairingApproved (fingerprintHex : String)
  | pairingRejected (fingerprintHex : String)
  | pendingLinks (pending : List PendingLink)
  | linkApproved (fingerprintHex : String) (linkId : Option UInt64)
  | linkRejected (fingerprintHex : String) (linkId : Option UInt64)
  | pinned (fingerprintHex : String)
  | applied (restartRequired : Bool)
  | sessionDropped (fingerprintHex : String)
  | linkEnded (linkId : UInt64)
  | disconnected (fingerprintHex : Option String) (linkId : Option UInt64)
  | peerNotified (fingerprintHex : String)
  | identity (certDerHex keyDerHex : String)
  | clipboardUpdate (update : ClipboardUpdate)
  | error (message : String)
  deriving DecidableEq

/-! ### JSON -/

def optionalU64 (n : Option UInt64) : Json := .option (fun n => .nat n.toNat) n

def fingerprintJson (fingerprintHex : String) : Json :=
  .obj [("fingerprint_hex", .str fingerprintHex)]

def linkJson (fingerprintHex : String) (linkId : Option UInt64) : Json :=
  .obj [("fingerprint_hex", .str fingerprintHex), ("link_id", optionalU64 linkId)]

def kindJson : ClipboardKind → Json
  | .text => .str "Text"
  | .imagePng => .str "ImagePng"

def ConfigUpdate.toJson (update : ConfigUpdate) : Json :=
  .obj [("device_name", .option .str update.deviceName), ("mode", .option Mode.toJson update.mode),
    ("allow_lock_screen_control", .option .bool update.allowLockScreenControl),
    ("listen_port", .option (fun port => .nat port.toNat) update.listenPort),
    ("layout", .option Layout.toJson update.layout),
    ("auto_connect_address", .option .str update.autoConnectAddress),
    ("clear_auto_connect", .bool update.clearAutoConnect),
    ("clipboard_enabled", .option .bool update.clipboardEnabled),
    ("clipboard_max_mb", .option (fun max => .nat max.toNat) update.clipboardMaxMb),
    ("edge_mode", .option EdgeMode.toJson update.edgeMode),
    ("transport", .option TransportProtocol.toJson update.transport),
    ("reverse_scroll", .option .bool update.reverseScroll),
    ("auto_discover", .option .bool update.autoDiscover),
    ("double_edge_style", .option DoubleEdgeStyle.toJson update.doubleEdgeStyle)]

def ClipboardOffer.toJson (offer : ClipboardOffer) : Json :=
  .obj [("generation", .nat offer.generation.toNat), ("kind", kindJson offer.kind),
    ("total_chunks", .nat offer.totalChunks.toNat), ("index", .nat offer.index.toNat),
    ("data", .str offer.data), ("width", .nat offer.width.toNat),
    ("height", .nat offer.height.toNat)]

def Request.toJson : Request → Json
  | .status => .str "Status"
  | .getConfig => .str "GetConfig"
  | .pair address expectedFingerprintHex =>
    .tagged "Pair" (.obj [("address", .str address),
      ("expected_fingerprint_hex", .str expectedFingerprintHex)])
  | .listPeers => .str "ListPeers"
  | .unpair fingerprintHex => .tagged "Unpair" (fingerprintJson fingerprintHex)
  | .pinPeer fingerprintHex nodeName address =>
    .tagged "PinPeer" (.obj [("fingerprint_hex", .str fingerprintHex),
      ("node_name", .option .str nodeName), ("address", .option .str address)])
  | .listPendingPairings => .str "ListPendingPairings"
  | .approvePairing fingerprintHex => .tagged "ApprovePairing" (fingerprintJson fingerprintHex)
  | .rejectPairing fingerprintHex => .tagged "RejectPairing" (fingerprintJson fingerprintHex)
  | .listPendingLinks => .str "ListPendingLinks"
  | .approveLink fingerprintHex linkId => .tagged "ApproveLink" (linkJson fingerprintHex linkId)
  | .rejectLink fingerprintHex linkId => .tagged "RejectLink" (linkJson fingerprintHex linkId)
  | .dropSession fingerprintHex => .tagged "DropSession" (fingerprintJson fingerprintHex)
  | .endLink linkId => .tagged "EndLink" (.obj [("link_id", .nat linkId.toNat)])
  | .notifyPeerEnded fingerprintHex linkId address =>
    .tagged "NotifyPeerEnded" (.obj [("fingerprint_hex", .str fingerprintHex),
      ("link_id", optionalU64 linkId), ("address", .option .str address)])
  | .disconnectLink fingerprintHex address linkId =>
    .tagged "DisconnectLink" (.obj [("fingerprint_hex", .option .str fingerprintHex),
      ("address", .option .str address), ("link_id", optionalU64 linkId)])
  | .linkLease fingerprintHex address linkId =>
    .tagged "LinkLease" (.obj [("fingerprint_hex", .str fingerprintHex),
      ("address", .str address), ("link_id", optionalU64 linkId)])
  | .linkLeasePing => .str "LinkLeasePing"
  | .presenceLease => .str "PresenceLease"
  | .presencePing => .str "PresencePing"
  | .exportIdentity => .str "ExportIdentity"
  | .setConfig update => .tagged "SetConfig" update.toJson
  | .clipboardPoll lastSeenRevision nextIndex waitMs =>
    .tagged "ClipboardPoll" (.obj [("last_seen_revision", .nat lastSeenRevision.toNat),
      ("next_index", .nat nextIndex.toNat), ("wait_ms", .nat waitMs.toNat)])
  | .clipboardOffer offer => .tagged "ClipboardOffer" offer.toJson

def ActiveSession.toJson (session : ActiveSession) : Json :=
  .obj [("fingerprint_hex", .str session.fingerprintHex), ("node_name", .str session.nodeName),
    ("address", .str session.address), ("link_id", optionalU64 session.linkId),
    ("input_events", .nat session.inputEvents.toNat), ("driving", .bool session.driving),
    ("last_input_age_ms", optionalU64 session.lastInputAgeMs)]

def RecentInbound.toJson (recent : RecentInbound) : Json :=
  .obj [("fingerprint_hex", .str recent.fingerprintHex), ("node_name", .str recent.nodeName),
    ("address", .str recent.address), ("link_id", optionalU64 recent.linkId),
    ("last_seen_secs_ago", .nat recent.lastSeenSecsAgo.toNat)]

def PendingPairing.toJson (pending : PendingPairing) : Json :=
  .obj [("node_name", .str pending.nodeName), ("fingerprint_hex", .str pending.fingerprintHex),
    ("address", .str pending.address), ("verification_code", .str pending.verificationCode)]

def PendingLink.toJson (pending : PendingLink) : Json :=
  .obj [("node_name", .str pending.nodeName), ("fingerprint_hex", .str pending.fingerprintHex),
    ("address", .str pending.address), ("link_id", optionalU64 pending.linkId)]

def peerJson (peer : Peer) : Json :=
  .obj [("name", .str peer.name), ("fingerprint_hex", .str peer.fingerprintHex),
    ("address", .option .str peer.address)]

def updateJson (update : ClipboardUpdate) : Json :=
  .obj [("revision", .nat update.revision), ("kind", kindJson update.kind),
    ("total_bytes", .nat update.totalBytes), ("total_chunks", .nat update.totalChunks),
    ("index", .nat update.index), ("data", .str (String.ofList update.data)),
    ("width", .nat update.width), ("height", .nat update.height),
    ("enabled", .option .bool update.enabled)]

def DaemonStatus.toJson (status : DaemonStatus) : Json :=
  .obj [("node_name", .str status.nodeName), ("fingerprint_hex", .str status.fingerprintHex),
    ("listen_port", .nat status.listenPort.toNat), ("mode", status.mode.toJson),
    ("allow_lock_screen_control", .bool status.allowLockScreenControl),
    ("auto_connect_address", .option .str status.autoConnectAddress),
    ("clipboard_enabled", .bool status.clipboardEnabled),
    ("clipboard_max_mb", .nat status.clipboardMaxMb.toNat),
    ("edge_mode", status.edgeMode.toJson), ("transport", status.transport.toJson),
    ("reverse_scroll", .bool status.reverseScroll), ("auto_discover", .bool status.autoDiscover),
    ("double_edge_style", status.doubleEdgeStyle.toJson), ("peer_count", .nat status.peerCount),
    ("active_session_count", .nat status.activeSessionCount.toNat),
    ("uptime_seconds", .nat status.uptimeSeconds.toNat), ("pairing_code", .str status.pairingCode),
    ("sessions", .arr (status.sessions.map ActiveSession.toJson)),
    ("peer_ended_links", .arr (status.peerEndedLinks.map fun id => .nat id.toNat)),
    ("recent_inbound", .arr (status.recentInbound.map RecentInbound.toJson))]

def Response.toJson : Response → Json
  | .status daemon => .tagged "Status" daemon.toJson
  | .config settings => .tagged "Config" settings.toJson
  | .paired fingerprintHex => .tagged "Paired" (fingerprintJson fingerprintHex)
  | .peers book => .tagged "Peers" (.arr (book.map peerJson))
  | .unpaired fingerprintHex => .tagged "Unpaired" (fingerprintJson fingerprintHex)
  | .pendingPairings pending =>
    .tagged "PendingPairings" (.arr (pending.map PendingPairing.toJson))
  | .pairingApproved fingerprintHex => .tagged "PairingApproved" (fingerprintJson fingerprintHex)
  | .pairingRejected fingerprintHex => .tagged "PairingRejected" (fingerprintJson fingerprintHex)
  | .pendingLinks pending => .tagged "PendingLinks" (.arr (pending.map PendingLink.toJson))
  | .linkApproved fingerprintHex linkId => .tagged "LinkApproved" (linkJson fingerprintHex linkId)
  | .linkRejected fingerprintHex linkId => .tagged "LinkRejected" (linkJson fingerprintHex linkId)
  | .pinned fingerprintHex => .tagged "Pinned" (fingerprintJson fingerprintHex)
  | .applied restartRequired =>
    .tagged "Applied" (.obj [("restart_required", .bool restartRequired)])
  | .sessionDropped fingerprintHex => .tagged "SessionDropped" (fingerprintJson fingerprintHex)
  | .linkEnded linkId => .tagged "LinkEnded" (.obj [("link_id", .nat linkId.toNat)])
  | .disconnected fingerprintHex linkId =>
    .tagged "Disconnected" (.obj [("fingerprint_hex", .option .str fingerprintHex),
      ("link_id", optionalU64 linkId)])
  | .peerNotified fingerprintHex => .tagged "PeerNotified" (fingerprintJson fingerprintHex)
  | .identity certDerHex keyDerHex =>
    .tagged "Identity" (.obj [("cert_der_hex", .str certDerHex), ("key_der_hex", .str keyDerHex)])
  | .clipboardUpdate update => .tagged "ClipboardUpdate" (updateJson update)
  | .error message => .tagged "Error" (.obj [("message", .str message)])

/-! ### Sizes

The numbers are what names of fields and punctuation take. -/

def peerLen (peer : Peer) : ℕ :=
  43 + Json.escapedLen peer.name + Json.escapedLen peer.fingerprintHex + optionalLen peer.address

def PendingPairing.textLen (pending : PendingPairing) : ℕ :=
  73 + Json.escapedLen pending.nodeName + Json.escapedLen pending.fingerprintHex +
    Json.escapedLen pending.address + Json.escapedLen pending.verificationCode

def PendingLink.textLen (pending : PendingLink) : ℕ :=
  61 + Json.escapedLen pending.nodeName + Json.escapedLen pending.fingerprintHex +
    Json.escapedLen pending.address + (optionalU64 pending.linkId).size

def ActiveSession.textLen (session : ActiveSession) : ℕ :=
  109 + Json.escapedLen session.fingerprintHex + Json.escapedLen session.nodeName +
    Json.escapedLen session.address + (optionalU64 session.linkId).size +
    Json.decimalLen session.inputEvents.toNat + (Json.bool session.driving).size +
    (optionalU64 session.lastInputAgeMs).size

def RecentInbound.textLen (recent : RecentInbound) : ℕ :=
  83 + Json.escapedLen recent.fingerprintHex + Json.escapedLen recent.nodeName +
    Json.escapedLen recent.address + (optionalU64 recent.linkId).size +
    Json.decimalLen recent.lastSeenSecsAgo.toNat

def DaemonStatus.textLen (status : DaemonStatus) : ℕ :=
  360 + Json.escapedLen status.nodeName + Json.escapedLen status.fingerprintHex +
    Json.decimalLen status.listenPort.toNat + status.mode.toJson.size +
    (Json.bool status.allowLockScreenControl).size + optionalLen status.autoConnectAddress +
    (Json.bool status.clipboardEnabled).size + Json.decimalLen status.clipboardMaxMb.toNat +
    status.edgeMode.toJson.size + status.transport.toJson.size +
    (Json.bool status.reverseScroll).size + (Json.bool status.autoDiscover).size +
    status.doubleEdgeStyle.toJson.size + Json.decimalLen status.peerCount +
    Json.decimalLen status.activeSessionCount.toNat + Json.decimalLen status.uptimeSeconds.toNat +
    Json.escapedLen status.pairingCode + Json.listed (status.sessions.map ActiveSession.textLen) +
    Json.listed (status.peerEndedLinks.map fun id => Json.decimalLen id.toNat) +
    Json.listed (status.recentInbound.map RecentInbound.textLen)

/-- A chunk of a paste in an update. -/
def updateLen (update : ClipboardUpdate) : ℕ :=
  101 + Json.decimalLen update.revision + (kindJson update.kind).size +
    Json.decimalLen update.totalBytes + Json.decimalLen update.totalChunks +
    Json.decimalLen update.index + Json.escapedLen (String.ofList update.data) +
    Json.decimalLen update.width + Json.decimalLen update.height +
    (Json.option .bool update.enabled).size

def ClipboardOffer.textLen (offer : ClipboardOffer) : ℕ :=
  77 + Json.decimalLen offer.generation.toNat + (kindJson offer.kind).size +
    Json.decimalLen offer.totalChunks.toNat + Json.decimalLen offer.index.toNat +
    Json.escapedLen offer.data + Json.decimalLen offer.width.toNat +
    Json.decimalLen offer.height.toNat

lemma size_peerJson (peer : Peer) : (peerJson peer).size = peerLen peer := by
  simp [peerJson, peerLen, optionalLen]
  omega

lemma PendingPairing.size_toJson (pending : PendingPairing) :
    pending.toJson.size = pending.textLen := by
  simp [toJson, textLen]
  omega

lemma PendingLink.size_toJson (pending : PendingLink) : pending.toJson.size = pending.textLen := by
  simp [toJson, textLen]
  omega

lemma ActiveSession.size_toJson (session : ActiveSession) :
    session.toJson.size = session.textLen := by
  simp [toJson, textLen]
  omega

lemma RecentInbound.size_toJson (recent : RecentInbound) : recent.toJson.size = recent.textLen := by
  simp [toJson, textLen]
  omega

/-- A list of values, each of which takes what it takes. -/
lemma size_listed {α : Type} {toJson : α → Json} {len : α → ℕ} (h : ∀ a, (toJson a).size = len a)
    (items : List α) : (Json.arr (items.map toJson)).size = Json.listed (items.map len) := by
  rw [Json.size_arr_map, funext h]

lemma DaemonStatus.size_toJson (status : DaemonStatus) : status.toJson.size = status.textLen := by
  simp [toJson, textLen, optionalLen, size_listed ActiveSession.size_toJson,
    size_listed RecentInbound.size_toJson, Json.size_arr_map, -Json.size_arr]
  omega

lemma size_updateJson (update : ClipboardUpdate) : (updateJson update).size = updateLen update := by
  simp [updateJson, updateLen]
  omega

lemma ClipboardOffer.size_toJson (offer : ClipboardOffer) : offer.toJson.size = offer.textLen := by
  simp [toJson, textLen]
  omega

lemma size_optionalU64_le (n : Option UInt64) : (optionalU64 n).size ≤ 20 :=
  Json.size_option_le (by omega) fun n _ => decimalLen_uint64_le n

end TheKvm.Control

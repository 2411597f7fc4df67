import TheKvm.Daemon.Offer
import TheKvm.Daemon.Relay
import TheKvm.Protocol.ControlMessages

/-!
The daemon's side of a control connection: the response to a request.

A response is made of the state as the handler reads it, and of what the parts of the daemon it
calls on answer.
-/

namespace TheKvm.Control

/-- The facts of an outbound link that its child holds a lease of. -/
structure LeaseInfo where
  fingerprintHex : String
  address : String
  linkId : Option UInt64

/-- What a handler reads. -/
structure ServerState where
  config : Config
  peers : List Peer
  fingerprint : String
  /-- `station_pairing_code` of the fingerprint, now -/
  pairingCode : String
  activeSessions : UInt64
  uptimeSeconds : UInt64
  pendingPairings : List PendingPairing
  pendingLinks : List PendingLink
  sessions : List ActiveSession
  peerEndedLinks : List UInt64
  recentInbound : List RecentInbound
  relay : Option RelayPaste
  offers : LocalOffers
  /-- in the order they are iterated in -/
  leases : List LeaseInfo

/-- A fingerprint as certificates have it. -/
abbrev Fingerprint := { value : String // isFingerprint value = true }

/-- What the parts of the daemon answer to one request; an error is its text. -/
structure Answers where
  /-- `pair_for_daemon` -/
  pair : Except String Fingerprint
  /-- `decide` of the pairings and of the links: whether the request was pending -/
  decided : Bool
  /-- `outbound_epoch_owner` is another peer -/
  foreignEpoch : Bool
  /-- `PeerBook::unpin`, and whether there was such a peer -/
  unpin : Except String Bool
  /-- `PeerBook::pin_with_address` -/
  pin : Except String Unit
  /-- `drop_inbound_link` -/
  dropped : Bool
  /-- `notify_peer_ended` and `notify_peer_ended_at` -/
  notified : Except String Unit
  /-- `Identity::load_or_create`: certificate and key -/
  identity : Except String (List UInt8 × List UInt8)
  /-- the file of a configuration that passes its checks -/
  saved : Except String Unit
  /-- the clipboard slot each time a waiting request looks at it again -/
  wakes : List (Option RelayPaste)
  /-- a lease that is pinged is still the one that was begun -/
  touched : Bool

/-! ### Requests -/

def badFingerprint : Response := .error "peer fingerprint must contain 64 hexadecimal characters"

/-- A request about a peer, by its fingerprint. -/
def aboutPeer (fingerprintHex : String) (respond : String → Response) : Response :=
  if isFingerprint fingerprintHex then respond (Text.toAsciiLowercase fingerprintHex)
  else badFingerprint

/-- A request about the epoch of a peer's link. -/
def aboutLink (fingerprintHex : String) (linkId : Option UInt64)
    (respond : String → UInt64 → Response) : Response :=
  aboutPeer fingerprintHex fun fingerprintHex =>
    match linkId with
    | none => .error "epoch-less links never queue for approval"
    | some linkId => respond fingerprintHex linkId

/-- An error, with what was tried. -/
def failed (what error : String) : Response := .error (what ++ error)

/-- The response to what a call answers. -/
def passOn {α : Type} (what : String) (result : Except String α) (respond : α → Response) :
    Response :=
  match result with
  | .ok a => respond a
  | .error error => failed what error

def hexByte (byte : UInt8) : List Char :=
  [Json.hexDigit (byte.toNat / 16), Json.hexDigit byte.toNat]

def hexEncode (bytes : List UInt8) : String := String.ofList (bytes.flatMap hexByte)

def takeLease (leases : List LeaseInfo) (linkId : Option UInt64) (address : Option String) :
    Option LeaseInfo :=
  leases.find? fun lease =>
    linkId.any (lease.linkId = some ·) || address.any (lease.address = ·)

def disconnectLink (leases : List LeaseInfo) (fingerprintHex address : Option String)
    (linkId : Option UInt64) : Response :=
  let lease := takeLease leases linkId address
  let fingerprintHex := ((fingerprintHex.filter isFingerprint).map Text.toAsciiLowercase).or
    (lease.map LeaseInfo.fingerprintHex)
  let address := address.or (lease.map LeaseInfo.address)
  let linkId := linkId.or (lease.bind LeaseInfo.linkId)
  if fingerprintHex.isNone && address.isNone && linkId.isNone then
    .error "disconnect needs a peer fingerprint, address, or link epoch"
  else .disconnected fingerprintHex linkId

def ServerState.status (s : ServerState) : DaemonStatus where
  nodeName := s.config.deviceName
  fingerprintHex := s.fingerprint
  listenPort := s.config.listenPort
  mode := s.config.mode
  allowLockScreenControl := s.config.allowLockScreenControl
  autoConnectAddress := s.config.autoConnectAddress
  clipboardEnabled := s.config.clipboardEnabled
  clipboardMaxMb := s.config.clipboardMaxMb
  edgeMode := s.config.edgeMode
  transport := s.config.transport
  reverseScroll := s.config.reverseScroll
  autoDiscover := s.config.autoDiscover
  doubleEdgeStyle := s.config.doubleEdgeStyle
  peerCount := s.peers.length
  activeSessionCount := s.activeSessions
  uptimeSeconds := s.uptimeSeconds
  pairingCode := s.pairingCode
  sessions := s.sessions
  peerEndedLinks := s.peerEndedLinks
  recentInbound := s.recentInbound

/-! ### Settings -/

/-- The configuration with what an update replaces. -/
def ConfigUpdate.applied (update : ConfigUpdate) (current : Config) : Config where
  deviceName := (update.deviceName.map Text.trim).getD current.deviceName
  listenPort := current.listenPort
  mode := update.mode.getD current.mode
  -- the transport is cemented: whatever is asked for, it is UDP
  transport := if update.transport.isSome then .udp else current.transport
  edgeMode := update.edgeMode.getD current.edgeMode
  layout := update.layout.getD current.layout
  allowLockScreenControl := update.allowLockScreenControl.getD current.allowLockScreenControl
  autoConnectAddress :=
    if update.clearAutoConnect then none
    else (update.autoConnectAddress.map Text.trim).or current.autoConnectAddress
  clipboardEnabled := update.clipboardEnabled.getD current.clipboardEnabled
  clipboardMaxMb := update.clipboardMaxMb.getD current.clipboardMaxMb
  reverseScroll := update.reverseScroll.getD current.reverseScroll
  autoDiscover := update.autoDiscover.getD current.autoDiscover
  doubleEdgeStyle := update.doubleEdgeStyle.getD current.doubleEdgeStyle

/-- What `SetConfig` refuses before it saves. -/
def ConfigUpdate.refusal (update : ConfigUpdate) (current : Config) : Option String :=
  if update.listenPort = some 0 then some "listen port must be non-zero"
  else if update.clearAutoConnect && update.autoConnectAddress.isSome then
    some "auto-connect address cannot be set and cleared together"
  else if update.listenPort.any (· ≠ current.listenPort) then
    some "changing the listener port requires restarting the daemon"
  else if update.autoConnectAddress.any fun address => (Text.trim address).isEmpty then
    some "auto-connect address cannot be empty"
  else if update.clipboardMaxMb.any fun max => max = 0 || maxClipboardMaxMb < max then
    some "clipboard limit must be 1..=16 MB"
  else
    match update.layout.map Layout.validate with
    | some (.error error) => some ("invalid screen layout: " ++ error)
    | _ => none

/-- `Config::save`: a configuration is checked before it is written. -/
def save (config : Config) (saved : Except String Unit) : Except String Unit := do
  config.validate
  saved

/-- A change that takes a restart of the Windows service. -/
def restartRequired (windows : Bool) (current updated : Config) : Bool :=
  windows && (decide (updated.autoConnectAddress ≠ current.autoConnectAddress) ||
    (current.autoConnectAddress.isSome || updated.autoConnectAddress.isSome) &&
      (decide (updated.mode ≠ current.mode) ||
        updated.allowLockScreenControl != current.allowLockScreenControl))

def setConfig (windows : Bool) (current : Config) (saved : Except String Unit)
    (update : ConfigUpdate) : Config × Response :=
  match update.refusal current with
  | some message => (current, .error message)
  | none =>
    let updated := update.applied current
    match save updated saved with
    | .ok () => (updated, .applied (restartRequired windows current updated))
    | .error error => (current, failed "saving configuration: " error)

/-! ### The clipboard -/

def Response.ofClipboard : ControlResponse → Response
  | .applied restartRequired => .applied restartRequired
  | .error message => .error message
  | .clipboardUpdate update => .clipboardUpdate update

def nothingNew : ControlResponse → Bool
  | .clipboardUpdate update => update.revision = 0
  | _ => false

/-- The waiting part of `await_inbound_clipboard`; the last look is at the deadline. -/
def awaitWake (lastSeenRevision nextIndex : ℕ) (enabled : Bool) (slot : Option RelayPaste) :
    List (Option RelayPaste) → ControlResponse
  | [] => pollInboundClipboard slot lastSeenRevision nextIndex enabled
  | slot :: wakes =>
    let update := pollInboundClipboard slot lastSeenRevision nextIndex enabled
    if nothingNew update then awaitWake lastSeenRevision nextIndex enabled slot wakes else update

def awaitInboundClipboard (slot : Option RelayPaste) (wakes : List (Option RelayPaste))
    (lastSeenRevision nextIndex : ℕ) (waitMs : UInt32) (enabled : Bool) : ControlResponse :=
  let first := pollInboundClipboard slot lastSeenRevision nextIndex enabled
  if !nothingNew first || waitMs = 0 then first
  else awaitWake lastSeenRevision nextIndex enabled slot wakes

def ClipboardOffer.chunk (offer : ClipboardOffer) : OfferChunk where
  generation := offer.generation.toNat
  kind := offer.kind
  totalChunks := offer.totalChunks.toNat
  index := offer.index.toNat
  data := offer.data.toList
  width := offer.width.toNat
  height := offer.height.toNat

/-! ### The handler -/

/-- The response to the first request on a connection; `windows` is the target. -/
def answer (windows : Bool) (s : ServerState) (a : Answers) : Request → Response
  | .presenceLease => .applied false
  | .linkLease fingerprintHex _ _ => aboutPeer fingerprintHex fun _ => .applied false
  | .linkLeasePing => .error "link lease ping outside an open lease"
  | .presencePing => .error "presence ping outside an open presence lease"
  | .disconnectLink fingerprintHex address linkId =>
    disconnectLink s.leases fingerprintHex address linkId
  | .status => .status s.status
  | .getConfig => .config s.config
  | .clipboardPoll lastSeenRevision nextIndex waitMs =>
    .ofClipboard (awaitInboundClipboard s.relay a.wakes lastSeenRevision.toNat nextIndex.toNat
      waitMs s.config.clipboardEnabled)
  | .clipboardOffer offer => .ofClipboard (s.offers.submitLocalClipboardChunk offer.chunk).2
  | .pair _ _ => passOn "pairing failed: " a.pair fun fingerprint => .paired fingerprint.val
  | .listPeers => .peers s.peers
  | .listPendingPairings => .pendingPairings s.pendingPairings
  | .approvePairing fingerprintHex =>
    aboutPeer fingerprintHex fun fingerprintHex =>
      if a.decided then .pairingApproved fingerprintHex
      else .error "pending pairing request was not found"
  | .rejectPairing fingerprintHex =>
    aboutPeer fingerprintHex fun fingerprintHex =>
      if a.decided then .pairingRejected fingerprintHex
      else .error "pending pairing request was not found"
  | .listPendingLinks => .pendingLinks s.pendingLinks
  | .approveLink fingerprintHex linkId =>
    aboutLink fingerprintHex linkId fun fingerprintHex linkId =>
      if a.foreignEpoch then .error "that link epoch belongs to a different computer"
      else if a.decided then .linkApproved fingerprintHex (some linkId)
      else .error "pending link request was not found"
  | .rejectLink fingerprintHex linkId =>
    aboutLink fingerprintHex linkId fun fingerprintHex linkId =>
      if a.decided then .linkRejected fingerprintHex (some linkId)
      else .error "pending link request was not found"
  | .unpair fingerprintHex =>
    aboutPeer fingerprintHex fun fingerprintHex =>
      passOn "revoking peer failed: " a.unpin fun removed =>
        if removed then .unpaired fingerprintHex else .error "peer fingerprint was not paired"
  | .dropSession fingerprintHex =>
    aboutPeer fingerprintHex fun fingerprintHex =>
      if a.dropped then .sessionDropped fingerprintHex
      else .error "no live inbound session for that peer"
  | .endLink linkId => .linkEnded linkId
  | .notifyPeerEnded fingerprintHex _ _ =>
    aboutPeer fingerprintHex fun fingerprintHex =>
      passOn "peer notify failed: " a.notified fun _ => .peerNotified fingerprintHex
  | .exportIdentity =>
    passOn "reading daemon identity failed: " a.identity fun identity =>
      .identity (hexEncode identity.1) (hexEncode identity.2)
  | .pinPeer fingerprintHex _ _ =>
    aboutPeer fingerprintHex fun fingerprintHex =>
      passOn "pinning peer failed: " a.pin fun _ => .pinned fingerprintHex
  | .setConfig update => (setConfig windows s.config a.saved update).2

/-- A connection that was just opened, or one that holds a lease. -/
inductive Connection
  | fresh | presence | linkLease
  deriving DecidableEq

/-- The response to a request. A ping keeps its lease open; anything else ends it unanswered. -/
def respond (windows : Bool) (s : ServerState) (a : Answers) :
    Connection → Request → Option Response
  | .fresh, request => some (answer windows s a request)
  | .presence, .presencePing => if a.touched then some (.applied false) else none
  | .linkLease, .linkLeasePing => if a.touched then some (.applied false) else none
  | _, _ => none

/-- `lease_begin`: a lease replaces the one of the same peer and epoch. -/
def leaseBegin (leases : List LeaseInfo) (lease : LeaseInfo) : List LeaseInfo :=
  leases.filter (fun other =>
    ¬(other.fingerprintHex = lease.fingerprintHex ∧ other.linkId = lease.linkId)) ++ [lease]

/-- What a request leaves of the parts a handler writes itself. -/
def ServerState.after (windows : Bool) (s : ServerState) (a : Answers) : Request → ServerState
  | .setConfig update => { s with config := (setConfig windows s.config a.saved update).1 }
  | .clipboardOffer offer =>
    { s with offers := (s.offers.submitLocalClipboardChunk offer.chunk).1 }
  | .linkLease fingerprintHex address linkId =>
    if isFingerprint fingerprintHex then
      { s with leases :=
          leaseBegin s.leases ⟨Text.toAsciiLowercase fingerprintHex, address, linkId⟩ }
    else s
  | _ => s

/-- A state the daemon can be in. -/
structure ServerState.Valid (s : ServerState) : Prop where
  config : s.config.validate = .ok ()
  peers : ValidPeers s.peers
  relay : ∀ paste ∈ s.relay, ∃ received : ReceivedPaste, paste = received.stashed
  leases : ∀ lease ∈ s.leases, isFingerprint lease.fingerprintHex = true

/-! ### What has room in a frame -/

/-- An error that is passed on fits. -/
def ErrorFits {α : Type} (what : String) (result : Except String α) : Prop :=
  ∀ error, result = .error error →
    24 + Json.escapedLen what + Json.escapedLen error ≤ maxControlFrameSize

/-- The piece a slot has for a poll. -/
def newer (lastSeenRevision nextIndex : ℕ) (slot : Option RelayPaste) :
    Option (RelayPaste × List Char) :=
  slot.bind fun paste =>
    if paste.revision = 0 ∨ paste.revision = lastSeenRevision then none
    else paste.chunks[nextIndex]?.map fun data => (paste, data)

/-- The text of a piece, with the header of its paste. -/
def pieceLen (paste : RelayPaste) (index : ℕ) (data : List Char) (enabled : Bool) : ℕ :=
  101 + Json.decimalLen paste.revision + (kindJson paste.kind).size +
    Json.decimalLen paste.totalBytes + Json.decimalLen (paste.chunks.length % 2 ^ 32 : ℕ) +
    Json.decimalLen index + Json.escapedLen (String.ofList data) + Json.decimalLen paste.width +
    Json.decimalLen paste.height + (Json.bool enabled).size

/-- The bytes a status takes. -/
def ServerState.statusLen (s : ServerState) : ℕ :=
  360 + Json.escapedLen s.config.deviceName + Json.escapedLen s.fingerprint +
    Json.decimalLen s.config.listenPort.toNat + s.config.mode.toJson.size +
    (Json.bool s.config.allowLockScreenControl).size + optionalLen s.config.autoConnectAddress +
    (Json.bool s.config.clipboardEnabled).size + Json.decimalLen s.config.clipboardMaxMb.toNat +
    s.config.edgeMode.toJson.size + s.config.transport.toJson.size +
    (Json.bool s.config.reverseScroll).size + (Json.bool s.config.autoDiscover).size +
    s.config.doubleEdgeStyle.toJson.size + Json.decimalLen s.peers.length +
    Json.decimalLen s.activeSessions.toNat + Json.decimalLen s.uptimeSeconds.toNat +
    Json.escapedLen s.pairingCode + Json.listed (s.sessions.map ActiveSession.textLen) +
    Json.listed (s.peerEndedLinks.map fun id => Json.decimalLen id.toNat) +
    Json.listed (s.recentInbound.map RecentInbound.textLen)

/-- What a request asks for has room in a frame, with its escapes. -/
def HasRoom (s : ServerState) (a : Answers) : Request → Prop
  | .status => 11 + s.statusLen ≤ maxControlFrameSize
  | .getConfig => 11 + s.config.textLen ≤ maxControlFrameSize
  | .listPeers => 10 + Json.listed (s.peers.map peerLen) ≤ maxControlFrameSize
  | .listPendingPairings =>
    20 + Json.listed (s.pendingPairings.map PendingPairing.textLen) ≤ maxControlFrameSize
  | .listPendingLinks =>
    17 + Json.listed (s.pendingLinks.map PendingLink.textLen) ≤ maxControlFrameSize
  | .clipboardPoll lastSeenRevision nextIndex waitMs =>
    ∀ paste data,
      (s.relay :: if waitMs = 0 then [] else a.wakes).findSome?
          (newer lastSeenRevision.toNat nextIndex.toNat) = some (paste, data) →
        20 + pieceLen paste nextIndex.toNat data s.config.clipboardEnabled ≤ maxControlFrameSize
  | .pair _ _ => ErrorFits "pairing failed: " a.pair
  | .unpair fingerprintHex =>
    isFingerprint fingerprintHex = true → ErrorFits "revoking peer failed: " a.unpin
  | .pinPeer fingerprintHex _ _ =>
    isFingerprint fingerprintHex = true → ErrorFits "pinning peer failed: " a.pin
  | .notifyPeerEnded fingerprintHex _ _ =>
    isFingerprint fingerprintHex = true → ErrorFits "peer notify failed: " a.notified
  | .exportIdentity =>
    ErrorFits "reading daemon identity failed: " a.identity ∧
      ∀ identity, a.identity = .ok identity →
        49 + 2 * identity.1.length + 2 * identity.2.length ≤ maxControlFrameSize
  | .setConfig update =>
    update.refusal s.config = none → (update.applied s.config).validate = .ok () →
      ErrorFits "saving configuration: " a.saved
  | _ => True

/-! ### Sizes -/

lemma length_of_fingerprint {value : String} (h : isFingerprint value = true) :
    value.toList.length ≤ 64 := by
  simp only [isFingerprint, Bool.and_eq_true, decide_eq_true_eq] at h
  calc value.toList.length ≤ Text.utf8Len value.toList := Text.length_le_utf8Len _
    _ = value.utf8ByteSize := by rw [Text.utf8ByteSize_eq_len, Text.len_eq]
    _ ≤ 64 := h.1.le

lemma escapedLen_fingerprint {value : String} (h : isFingerprint value = true) :
    Json.escapedLen value ≤ 384 :=
  (Json.escapedLen_le_length value).trans (Nat.mul_le_mul_left 6 (length_of_fingerprint h))

lemma escapedLen_lower {value : String} (h : isFingerprint value = true) :
    Json.escapedLen (Text.toAsciiLowercase value) ≤ 384 := by
  have hle := Json.escapedLen_le_length (Text.toAsciiLowercase value)
  have hlen := length_of_fingerprint h
  rw [Text.toAsciiLowercase, String.toList_ofList, List.length_map] at hle
  exact hle.trans (Nat.mul_le_mul_left 6 hlen)

lemma escapedLen_hexEncode (bytes : List UInt8) :
    Json.escapedLen (hexEncode bytes) = 2 * bytes.length := by
  have hplain : ∀ n : ℕ, Json.plain (Json.hexDigit n) = true := by
    intro n
    have hlt : n % 16 < 16 := Nat.mod_lt _ (by omega)
    unfold Json.hexDigit
    generalize n % 16 = m at hlt
    revert m
    decide
  have hall : (hexEncode bytes).toList.all Json.plain := by
    rw [hexEncode, String.toList_ofList, List.all_eq_true]
    intro c hc
    obtain ⟨byte, -, hc⟩ := List.mem_flatMap.mp hc
    simp only [hexByte, List.mem_cons, List.not_mem_nil, or_false] at hc
    rcases hc with rfl | rfl <;> exact hplain _
  rw [Json.escapedLen_plain hall, hexEncode, String.toList_ofList]
  simp [List.length_flatMap, hexByte, Nat.mul_comm]

/-- A response within a frame. -/
def Fits (r : Response) : Prop := r.toJson.size ≤ maxControlFrameSize

variable {α : Type} {what error message fingerprintHex : String} {linkId : Option UInt64}
  {s : ServerState} {a : Answers}

lemma size_error (message : String) :
    (Response.error message).toJson.size = 24 + Json.escapedLen message := by
  simp [Response.toJson]
  omega

lemma fits_failed : Fits (failed what error) ↔
    24 + Json.escapedLen what + Json.escapedLen error ≤ maxControlFrameSize := by
  rw [Fits, failed, size_error, Json.escapedLen_append, Nat.add_assoc]

lemma fits_error (h : Json.escapedLen message ≤ 200) : Fits (.error message) := by
  rw [Fits, size_error, maxControlFrameSize]
  omega

lemma fits_applied (restartRequired : Bool) : Fits (.applied restartRequired) := by
  have hbool := Json.size_bool_le restartRequired
  simp [Fits, Response.toJson, maxControlFrameSize]
  omega

lemma fits_disconnected {fingerprintHex : Option String}
    (h : ∀ f ∈ fingerprintHex, Json.escapedLen f ≤ 384) :
    Fits (.disconnected fingerprintHex linkId) := by
  have hid := size_optionalU64_le linkId
  have hfingerprint : (Json.option .str fingerprintHex).size ≤ 386 := by
    refine Json.size_option_le (by omega) fun f hf => ?_
    have := h f hf
    rw [Json.size_str]
    omega
  simp [Fits, Response.toJson, maxControlFrameSize]
  omega

lemma fits_fingerprint {tag : String} (htag : Json.escapedLen tag ≤ 20)
    (h : Json.escapedLen fingerprintHex ≤ 384) :
    (Json.tagged tag (fingerprintJson fingerprintHex)).size ≤ maxControlFrameSize := by
  simp [fingerprintJson, maxControlFrameSize]
  omega

lemma fits_link {tag : String} (htag : Json.escapedLen tag ≤ 20)
    (h : Json.escapedLen fingerprintHex ≤ 384) :
    (Json.tagged tag (linkJson fingerprintHex linkId)).size ≤ maxControlFrameSize := by
  have hid := size_optionalU64_le linkId
  simp [linkJson, maxControlFrameSize]
  omega

/-- What a result that is passed on takes: a short response, or the text of its error. -/
lemma fits_passOn {result : Except String α} {respond : α → Response}
    (h : ∀ a, result = .ok a → Fits (respond a)) :
    Fits (passOn what result respond) ↔ ErrorFits what result := by
  cases result with
  | ok a =>
    refine iff_of_true (h a rfl) ?_
    rintro error ⟨⟩
  | error error =>
    rw [passOn, fits_failed, ErrorFits]
    exact ⟨fun h _ heq => by cases heq; exact h, fun h => h error rfl⟩

lemma fits_aboutPeer {respond : String → Response} :
    Fits (aboutPeer fingerprintHex respond) ↔
      (isFingerprint fingerprintHex = true →
        Fits (respond (Text.toAsciiLowercase fingerprintHex))) := by
  rw [aboutPeer]
  split_ifs with h
  · exact ⟨fun hfits _ => hfits, fun hfits => hfits h⟩
  · refine iff_of_true (fits_error ?_) fun h' => absurd h' h
    decide

/-! ### What a poll finds -/

section

variable {slot : Option RelayPaste} {wakes : List (Option RelayPaste)}
  {lastSeenRevision nextIndex : ℕ} {enabled : Bool}

/-- The update for a piece. -/
def pieceUpdate (nextIndex : ℕ) (enabled : Bool) (piece : RelayPaste × List Char) :
    ClipboardUpdate where
  revision := piece.1.revision
  kind := piece.1.kind
  totalBytes := piece.1.totalBytes
  totalChunks := piece.1.chunks.length % 2 ^ 32
  index := nextIndex
  data := piece.2
  width := piece.1.width
  height := piece.1.height
  enabled := some enabled

/-- The update for what was found, if anything was. -/
def update (nextIndex : ℕ) (enabled : Bool) (found : Option (RelayPaste × List Char)) :
    ControlResponse :=
  .clipboardUpdate (found.elim (.nothing enabled) (pieceUpdate nextIndex enabled))

lemma pollInboundClipboard_eq :
    pollInboundClipboard slot lastSeenRevision nextIndex enabled =
      update nextIndex enabled (newer lastSeenRevision nextIndex slot) := by
  unfold pollInboundClipboard update newer
  cases slot with
  | none => rfl
  | some paste =>
    simp only [Option.bind_some]
    split_ifs with hold
    · rfl
    · cases paste.chunks[nextIndex]? <;> rfl

/-- What is newer has a revision. -/
lemma nothingNew_update :
    nothingNew (update nextIndex enabled (newer lastSeenRevision nextIndex slot)) =
      (newer lastSeenRevision nextIndex slot).isNone := by
  cases hnewer : newer lastSeenRevision nextIndex slot with
  | none => rfl
  | some piece =>
    obtain ⟨paste, hslot, hpaste⟩ := Option.bind_eq_some_iff.mp hnewer
    split_ifs at hpaste with hold
    obtain ⟨data, -, rfl⟩ := Option.map_eq_some_iff.mp hpaste
    rw [not_or] at hold
    simp [nothingNew, update, pieceUpdate, hold.1]

/-- Waiting finds what the first slot has that has something. -/
lemma awaitWake_eq (hslot : newer lastSeenRevision nextIndex slot = none) :
    awaitWake lastSeenRevision nextIndex enabled slot wakes =
      update nextIndex enabled (wakes.findSome? (newer lastSeenRevision nextIndex)) := by
  induction wakes generalizing slot with
  | nil => rw [awaitWake, pollInboundClipboard_eq, hslot, List.findSome?_nil]
  | cons woken wakes ih =>
    rw [awaitWake]
    simp only [pollInboundClipboard_eq, nothingNew_update]
    cases hnewer : newer lastSeenRevision nextIndex woken with
    | none =>
      rw [List.findSome?_cons_of_isNone (by rw [hnewer]; rfl)]
      exact ih hnewer
    | some piece =>
      rw [List.findSome?_cons_of_isSome (by rw [hnewer]; rfl), hnewer]
      rfl

lemma awaitInboundClipboard_eq (waitMs : UInt32) :
    awaitInboundClipboard slot wakes lastSeenRevision nextIndex waitMs enabled =
      update nextIndex enabled ((slot :: if waitMs = 0 then [] else wakes).findSome?
        (newer lastSeenRevision nextIndex)) := by
  rw [awaitInboundClipboard]
  simp only [pollInboundClipboard_eq, nothingNew_update]
  cases hnewer : newer lastSeenRevision nextIndex slot with
  | some piece =>
    rw [List.findSome?_cons_of_isSome (by rw [hnewer]; rfl), hnewer]
    rfl
  | none =>
    rw [List.findSome?_cons_of_isNone (by rw [hnewer]; rfl)]
    by_cases hwait : waitMs = 0
    · simp [hwait]
    · simp [hwait, awaitWake_eq hnewer]

lemma size_clipboardUpdate (u : ClipboardUpdate) :
    (Response.ofClipboard (.clipboardUpdate u)).toJson.size = 20 + updateLen u := by
  simp [Response.ofClipboard, Response.toJson, size_updateJson]
  omega

lemma fits_update {found : Option (RelayPaste × List Char)} :
    Fits (.ofClipboard (update nextIndex enabled found)) ↔
      ∀ paste data, found = some (paste, data) →
        20 + pieceLen paste nextIndex data enabled ≤ maxControlFrameSize := by
  rw [Fits, update, size_clipboardUpdate]
  cases found with
  | none =>
    refine iff_of_true ?_ nofun
    rw [Option.elim_none]
    cases enabled <;> decide
  | some piece =>
    refine ⟨fun h paste data heq => ?_, fun h => h piece.1 piece.2 rfl⟩
    obtain rfl := Option.some.inj heq
    exact h

end

/-! ### Every response -/

lemma save_cases (config : Config) (saved : Except String Unit) :
    save config saved = match config.validate with
      | .ok () => saved
      | .error message => .error message := by
  unfold save
  cases config.validate <;> rfl

/-- What `SetConfig` says before it saves is short. -/
lemma ConfigUpdate.refusal_short {update : ConfigUpdate} {current : Config}
    (h : update.refusal current = some message) : Json.escapedLen message ≤ 200 := by
  unfold refusal at h
  split_ifs at h
  iterate 5
    obtain rfl := Option.some.inj h
    decide
  split at h
  · rename_i error herror
    obtain ⟨layout, -, hlayout⟩ := Option.map_eq_some_iff.mp herror
    have hle := Layout.validate_error hlayout
    obtain rfl := Option.some.inj h
    rw [Json.escapedLen_append]
    have hlead : Json.escapedLen "invalid screen layout: " = 23 := by decide
    omega
  · cases h

lemma fits_setConfig (windows : Bool) (current : Config) (saved : Except String Unit)
    (update : ConfigUpdate) :
    Fits (setConfig windows current saved update).2 ↔
      (update.refusal current = none → (update.applied current).validate = .ok () →
        ErrorFits "saving configuration: " saved) := by
  unfold setConfig
  cases hrefusal : update.refusal current with
  | some message =>
    exact iff_of_true (fits_error (ConfigUpdate.refusal_short hrefusal)) nofun
  | none =>
    simp only [save_cases]
    cases hvalidate : (update.applied current).validate with
    | error message =>
      have hshort := Config.validate_error hvalidate
      refine iff_of_true ?_ nofun
      rw [fits_failed]
      have hlead : Json.escapedLen "saving configuration: " = 22 := by decide
      rw [hlead, maxControlFrameSize]
      omega
    | ok valid =>
      have happlied : ∀ u, saved = .ok u →
          Fits (.applied (restartRequired windows current (update.applied current))) :=
        fun _ _ => fits_applied _
      constructor
      · intro h _ _
        exact (fits_passOn happlied).mp (by cases saved <;> exact h)
      · intro h
        have hsaved := (fits_passOn happlied).mpr (h trivial rfl)
        cases saved <;> exact hsaved

lemma fits_disconnectLink {leases : List LeaseInfo}
    (hleases : ∀ lease ∈ leases, isFingerprint lease.fingerprintHex = true)
    (fingerprint address : Option String) (linkId : Option UInt64) :
    Fits (disconnectLink leases fingerprint address linkId) := by
  unfold disconnectLink
  simp only
  split_ifs
  · exact fits_error (by decide)
  · refine fits_disconnected fun f hf => ?_
    rcases Option.or_eq_some_iff.mp hf with hown | ⟨-, hlease⟩
    · obtain ⟨own, hfiltered, rfl⟩ := Option.map_eq_some_iff.mp hown
      exact escapedLen_lower (Option.filter_eq_some_iff.mp hfiltered).2
    · obtain ⟨lease, hfound, rfl⟩ := Option.map_eq_some_iff.mp hlease
      exact escapedLen_fingerprint (hleases lease (List.mem_of_find?_eq_some hfound))

lemma fits_submit (offers : LocalOffers) (chunk : OfferChunk) :
    Fits (.ofClipboard (offers.submitLocalClipboardChunk chunk).2) := by
  have hrefusal : ∀ message, OfferAssembly.refusal chunk = some message →
      Json.escapedLen message ≤ 200 := by
    intro message h
    unfold OfferAssembly.refusal at h
    split_ifs at h <;> obtain rfl := Option.some.inj h <;> decide
  have hpush : ∀ message, (offers.assembly.push chunk).2 = .error message →
      Json.escapedLen message ≤ 200 := by
    intro message h
    unfold OfferAssembly.push at h
    split at h
    · rename_i refused hrefused
      exact hrefusal message (by rw [hrefused, Except.error.inj h])
    · simp only at h
      split_ifs at h
      obtain rfl := Except.error.inj h
      decide
  unfold LocalOffers.submitLocalClipboardChunk
  split
  · exact fits_applied false
  · exact fits_applied false
  · rename_i message heq
    exact fits_error (hpush message (by rw [heq]))

/-- **What a response takes.** -/
lemma fits_answer_iff (windows : Bool) (hvalid : s.Valid) (request : Request) :
    Fits (answer windows s a request) ↔ HasRoom s a request := by
  cases request with
  | status =>
    have hsize : (Response.status s.status).toJson.size = 11 + s.statusLen := by
      have hlen : s.status.textLen = s.statusLen := rfl
      simp [Response.toJson, DaemonStatus.size_toJson, hlen]
      omega
    rw [answer, Fits, hsize]
    rfl
  | getConfig =>
    have hsize : (Response.config s.config).toJson.size = 11 + s.config.textLen := by
      simp [Response.toJson, Config.size_toJson]
      omega
    rw [answer, Fits, hsize]
    rfl
  | listPeers =>
    have hsize : (Response.peers s.peers).toJson.size =
        10 + Json.listed (s.peers.map peerLen) := by
      simp [Response.toJson, size_listed size_peerJson, -Json.size_arr]
      omega
    rw [answer, Fits, hsize]
    rfl
  | listPendingPairings =>
    have hsize : (Response.pendingPairings s.pendingPairings).toJson.size =
        20 + Json.listed (s.pendingPairings.map PendingPairing.textLen) := by
      simp [Response.toJson, size_listed PendingPairing.size_toJson, -Json.size_arr]
      omega
    rw [answer, Fits, hsize]
    rfl
  | listPendingLinks =>
    have hsize : (Response.pendingLinks s.pendingLinks).toJson.size =
        17 + Json.listed (s.pendingLinks.map PendingLink.textLen) := by
      simp [Response.toJson, size_listed PendingLink.size_toJson, -Json.size_arr]
      omega
    rw [answer, Fits, hsize]
    rfl
  | clipboardPoll lastSeenRevision nextIndex waitMs =>
    rw [answer, awaitInboundClipboard_eq, fits_update]
    rfl
  | setConfig update => exact fits_setConfig ..
  | pair address expectedFingerprintHex =>
    exact fits_passOn fun fingerprint _ =>
      fits_fingerprint (by decide) (escapedLen_fingerprint fingerprint.property)
  | unpair fingerprintHex =>
    rw [answer, fits_aboutPeer]
    refine forall_congr' fun hfingerprint => ?_
    refine fits_passOn fun removed _ => ?_
    split_ifs
    · exact fits_fingerprint (by decide) (escapedLen_lower hfingerprint)
    · exact fits_error (by decide)
  | pinPeer fingerprintHex nodeName address =>
    rw [answer, fits_aboutPeer]
    exact forall_congr' fun hfingerprint => fits_passOn fun _ _ =>
      fits_fingerprint (by decide) (escapedLen_lower hfingerprint)
  | notifyPeerEnded fingerprintHex linkId address =>
    rw [answer, fits_aboutPeer]
    exact forall_congr' fun hfingerprint => fits_passOn fun _ _ =>
      fits_fingerprint (by decide) (escapedLen_lower hfingerprint)
  | exportIdentity =>
    unfold answer HasRoom ErrorFits
    cases hidentity : a.identity with
    | error error =>
      rw [passOn, fits_failed]
      exact ⟨fun h => ⟨fun _ heq => by cases heq; exact h, nofun⟩, fun h => h.1 error rfl⟩
    | ok identity =>
      have hsize : (Response.identity (hexEncode identity.1) (hexEncode identity.2)).toJson.size =
          49 + 2 * identity.1.length + 2 * identity.2.length := by
        simp [Response.toJson, escapedLen_hexEncode]
        omega
      rw [passOn, Fits, hsize]
      exact ⟨fun h => ⟨nofun, fun _ heq => by cases heq; exact h⟩, fun h => h.2 identity rfl⟩
  | presenceLease => exact iff_of_true (fits_applied false) trivial
  | linkLease fingerprintHex address linkId =>
    refine iff_of_true ?_ trivial
    rw [answer, fits_aboutPeer]
    exact fun _ => fits_applied false
  | linkLeasePing | presencePing => exact iff_of_true (fits_error (by decide)) trivial
  | disconnectLink fingerprintHex address linkId =>
    exact iff_of_true (fits_disconnectLink hvalid.leases ..) trivial
  | clipboardOffer offer => exact iff_of_true (fits_submit ..) trivial
  | approvePairing fingerprintHex | rejectPairing fingerprintHex | dropSession fingerprintHex =>
    refine iff_of_true ?_ trivial
    rw [answer, fits_aboutPeer]
    intro hfingerprint
    split_ifs
    · exact fits_fingerprint (by decide) (escapedLen_lower hfingerprint)
    · exact fits_error (by decide)
  | approveLink fingerprintHex linkId =>
    refine iff_of_true ?_ trivial
    rw [answer, aboutLink, fits_aboutPeer]
    intro hfingerprint
    cases linkId with
    | none => exact fits_error (by decide)
    | some linkId =>
      simp only
      split_ifs
      · exact fits_error (by decide)
      · exact fits_link (by decide) (escapedLen_lower hfingerprint)
      · exact fits_error (by decide)
  | rejectLink fingerprintHex linkId =>
    refine iff_of_true ?_ trivial
    rw [answer, aboutLink, fits_aboutPeer]
    intro hfingerprint
    cases linkId with
    | none => exact fits_error (by decide)
    | some linkId =>
      simp only
      split_ifs
      · exact fits_link (by decide) (escapedLen_lower hfingerprint)
      · exact fits_error (by decide)
  | endLink linkId =>
    refine iff_of_true ?_ trivial
    have hid := decimalLen_uint64_le linkId
    simp [Fits, answer, Response.toJson, maxControlFrameSize]
    omega

/-- Inside a lease there is one response. -/
lemma respond_leased {windows : Bool} {connection : Connection} {request : Request}
    {response : Response} (hleased : connection ≠ .fresh)
    (h : respond windows s a connection request = some response) : response = .applied false := by
  unfold respond at h
  split at h
  · exact absurd rfl hleased
  · split_ifs at h
    exact (Option.some.inj h).symm
  · split_ifs at h
    exact (Option.some.inj h).symm
  · cases h

/-! ### The states of a daemon -/

/-- Only a configuration that passes its checks takes the place of the one before. -/
lemma validate_setConfig {windows : Bool} {current : Config} {saved : Except String Unit}
    {update : ConfigUpdate} (h : current.validate = .ok ()) :
    (setConfig windows current saved update).1.validate = .ok () := by
  unfold setConfig
  cases update.refusal current with
  | some message => exact h
  | none =>
    simp only [save_cases]
    cases hvalidate : (update.applied current).validate with
    | error message => exact h
    | ok valid =>
      cases saved with
      | error error => exact h
      | ok _ => exact hvalidate

lemma ServerState.Valid.after (h : s.Valid) (windows : Bool) (request : Request) :
    (s.after windows a request).Valid := by
  cases request with
  | setConfig update => exact { h with config := validate_setConfig h.config }
  | clipboardOffer offer => exact { h with }
  | linkLease fingerprintHex address linkId =>
    simp only [ServerState.after]
    split_ifs with hfingerprint
    · refine { h with leases := fun lease hlease => ?_ }
      rcases List.mem_append.mp hlease with hold | hnew
      · exact h.leases lease (List.mem_of_mem_filter hold)
      · rw [List.mem_singleton.mp hnew]
        exact isFingerprint_toAsciiLowercase hfingerprint
    · exact h
  | _ => exact h

end TheKvm.Control

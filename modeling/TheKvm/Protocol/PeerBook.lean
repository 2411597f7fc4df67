import TheKvm.Lib.Trace
import TheKvm.Protocol.Wire

/-!
The peers that are trusted, in memory and in `peers.json`.

Fingerprints are looked up in one spelling; each operation brings its argument there in its
own way.
-/

namespace TheKvm

def maxTrustedPeers : ℕ := 256

def maxPeerAddressBytes : ℕ := 256

def maxDeviceNameBytes : ℕ := 128

structure Peer where
  name : String
  fingerprintHex : String
  address : Option String
  deriving DecidableEq

/-! ### Checks -/

/-- Fail with an error of this kind if the check finds fault. -/
def rejectAs (kind : ErrorKind) (fault : Bool) (message : String) : IoResult Unit :=
  if fault then .error ⟨kind, message⟩ else .ok ()

def validatePeerFields (name fingerprintHex : String) (address : Option String)
    (kind : ErrorKind) : IoResult Unit := do
  rejectAs kind
    (name.isEmpty || maxDeviceNameBytes < Text.len name || name.toList.any Text.isControl)
    "peer name is empty, too long, or contains control characters"
  rejectAs kind
    (Text.len fingerprintHex != 64 || !fingerprintHex.toList.all Text.isAsciiHexdigit)
    "peer fingerprint must contain 64 hexadecimal characters"
  rejectAs kind
    (address.any fun address => address.isEmpty || maxPeerAddressBytes < Text.len address ||
      address.toList.any Text.isControl)
    "peer address is empty, too long, or contains control characters"

/-- One turn of the loop of `normalize_and_validate_peers`. -/
def normalizePeer (kind : ErrorKind) (peer : Peer) : IoResult Peer := do
  let peer : Peer :=
    { name := Text.trim peer.name
      fingerprintHex := Text.toAsciiLowercase peer.fingerprintHex
      address := peer.address.map Text.trim }
  validatePeerFields peer.name peer.fingerprintHex peer.address kind
  return peer

def normalizePeers (kind : ErrorKind) : List Peer → IoResult (List Peer)
  | [] => return []
  | peer :: peers => do
    let peer ← normalizePeer kind peer
    let peers ← normalizePeers kind peers
    return peer :: peers

/-- The list as it is after the call, if there is nothing wrong with it. -/
def normalizeAndValidatePeers (peers : List Peer) (kind : ErrorKind) : IoResult (List Peer) :=
  if maxTrustedPeers < peers.length then
    .error ⟨kind, "trusted peer list exceeds 256 entries"⟩
  else do
    let peers ← normalizePeers kind peers
    rejectAs kind (!decide (peers.map Peer.fingerprintHex).Nodup)
      "trusted peer list contains duplicates"
    return peers

/-! ### The book and its file -/

/-- `serde_json` at the type of the list. -/
structure SerdePeers where
  toVecPretty : List Peer → Except String (List UInt8)
  fromSlice : List UInt8 → Except String (List Peer)

/-- A list that is written is read back. -/
def SerdePeers.Keeps (serde : SerdePeers) (peers : List Peer) : Prop :=
  ∃ bytes, serde.toVecPretty peers = .ok bytes ∧ serde.fromSlice bytes = .ok peers

/-- What the file system answers during one call: reading the file, making its directory,
replacing it. -/
structure Disk where
  read : Except String Unit
  createDir : Except String Unit
  write : Except String Unit

/-- The file system does as it is told. -/
def Disk.works : Disk := ⟨.ok (), .ok (), .ok ()⟩

/-- A save gets through. -/
def Disk.saves (disk : Disk) : Bool := disk.createDir.isOk && disk.write.isOk

/-- An error of the checks, or of the file. -/
inductive BookError
  | check (error : IoError)
  | file (message : String)

abbrev BookResult := Except BookError

def checked {α : Type} : IoResult α → BookResult α
  | .ok a => .ok a
  | .error error => .error (.check error)

def fileResult {α : Type} : Except String α → BookResult α
  | .ok a => .ok a
  | .error message => .error (.file message)

/-- The list in the file, if there is one. -/
def readPeers (serde : SerdePeers) (disk : Disk) : Option (List UInt8) → BookResult (List Peer)
  | none => return []
  | some bytes => do
    fileResult disk.read
    fileResult (serde.fromSlice bytes)

/-- `PeerBook::load_or_create`. -/
def loadOrCreate (serde : SerdePeers) (disk : Disk) (file : Option (List UInt8)) :
    BookResult (List Peer) := do
  let peers ← readPeers serde disk file
  checked (normalizeAndValidatePeers peers .invalidData)

/-- The list in memory, and the file. -/
structure PeerBook where
  peers : List Peer
  file : Option (List UInt8)

def isPinned (peers : List Peer) (fingerprintHex : String) : Bool :=
  peers.any fun peer =>
    peer.fingerprintHex == Text.toAsciiLowercase (Text.trim fingerprintHex)

/-- Change the first peer with this fingerprint. -/
def updatePeer (fingerprintHex : String) (update : Peer → Peer) : List Peer → List Peer
  | [] => []
  | peer :: peers =>
    if peer.fingerprintHex = fingerprintHex then update peer :: peers
    else peer :: updatePeer fingerprintHex update peers

/-- A pin of a peer that is known: the name is taken over, and an address if there is one. -/
def Peer.rename (name : String) (address : Option String) (peer : Peer) : Peer :=
  { peer with name, address := if address.isSome then address else peer.address }

namespace PeerBook

/-- `save`; the file is replaced or left as it was. -/
def save (serde : SerdePeers) (disk : Disk) (b : PeerBook) : PeerBook × BookResult Unit :=
  match checked (normalizeAndValidatePeers b.peers .invalidData) with
  | .error e => (b, .error e)
  | .ok peers =>
    match fileResult disk.createDir with
    | .error e => (b, .error e)
    | .ok () =>
      match fileResult (serde.toVecPretty peers) with
      | .error e => (b, .error e)
      | .ok bytes =>
        match fileResult disk.write with
        | .error e => (b, .error e)
        | .ok () => ({ b with file := some bytes }, .ok ())

def pinWithAddress (serde : SerdePeers) (disk : Disk) (b : PeerBook) (name fingerprintHex : String)
    (address : Option String) : PeerBook × BookResult Unit :=
  let name := Text.trim name
  let fingerprintHex := Text.toAsciiLowercase fingerprintHex
  let address := address.map Text.trim
  match checked (validatePeerFields name fingerprintHex address .invalidInput) with
  | .error e => (b, .error e)
  | .ok () =>
    if isPinned b.peers fingerprintHex = false then
      if maxTrustedPeers ≤ b.peers.length then
        (b, .error (.check ⟨.invalidInput, "trusted peer limit of 256 reached"⟩))
      else
        save serde disk { b with peers := b.peers ++ [⟨name, fingerprintHex, address⟩] }
    else
      match b.peers.find? fun peer => peer.fingerprintHex == fingerprintHex with
      | none => (b, .ok ())
      | some peer =>
        if peer.rename name address = peer then (b, .ok ())
        else
          save serde disk
            { b with peers := updatePeer fingerprintHex (Peer.rename name address) b.peers }

def pin (serde : SerdePeers) (disk : Disk) (b : PeerBook) (name fingerprintHex : String) :
    PeerBook × BookResult Unit :=
  b.pinWithAddress serde disk name fingerprintHex none

/-- Whether there was such a peer. -/
def unpin (serde : SerdePeers) (disk : Disk) (b : PeerBook) (fingerprintHex : String) :
    PeerBook × BookResult Bool :=
  let peers := b.peers.filter fun peer =>
    peer.fingerprintHex != Text.toAsciiLowercase fingerprintHex
  if peers.length = b.peers.length then (b, .ok false)
  else
    match save serde disk { b with peers } with
    | (b, .error e) => (b, .error e)
    | (b, .ok ()) => (b, .ok true)

end PeerBook

/-! ### Calls -/

inductive BookCall
  | loadOrCreate
  | pin (name fingerprintHex : String)
  | pinWithAddress (name fingerprintHex : String) (address : Option String)
  | unpin (fingerprintHex : String)

/-- A call, and the file system during it. -/
structure BookEvent where
  call : BookCall
  disk : Disk

/-- A book that is loaded takes the place of the one before. -/
def PeerBook.step (serde : SerdePeers) (b : PeerBook) (event : BookEvent) :
    PeerBook × BookResult Unit :=
  match event.call with
  | .loadOrCreate =>
    match TheKvm.loadOrCreate serde event.disk b.file with
    | .error e => (b, .error e)
    | .ok peers => ({ b with peers }, .ok ())
  | .pin name fingerprintHex => b.pin serde event.disk name fingerprintHex
  | .pinWithAddress name fingerprintHex address =>
    b.pinWithAddress serde event.disk name fingerprintHex address
  | .unpin fingerprintHex =>
    match b.unpin serde event.disk fingerprintHex with
    | (b, .error e) => (b, .error e)
    | (b, .ok _) => (b, .ok ())

namespace BookCall

/-- A pin is turned down: its fields do not pass, or the book is full. -/
def refused (peers : List Peer) : BookCall → Bool
  | .pin name fingerprintHex =>
    refusedPin peers name fingerprintHex none
  | .pinWithAddress name fingerprintHex address =>
    refusedPin peers name fingerprintHex address
  | .loadOrCreate | .unpin _ => false
where
  refusedPin (peers : List Peer) (name fingerprintHex : String) (address : Option String) : Bool :=
    let fingerprintHex := Text.toAsciiLowercase fingerprintHex
    !(validatePeerFields (Text.trim name) fingerprintHex (address.map Text.trim)
        .invalidInput).isOk ||
      !isPinned peers fingerprintHex && maxTrustedPeers ≤ peers.length

/-- The list a call is after, unless it is turned down. -/
def next (peers : List Peer) : BookCall → List Peer
  | .pin name fingerprintHex => nextPin peers name fingerprintHex none
  | .pinWithAddress name fingerprintHex address => nextPin peers name fingerprintHex address
  | .unpin fingerprintHex =>
    peers.filter fun peer => peer.fingerprintHex != Text.toAsciiLowercase fingerprintHex
  | .loadOrCreate => peers
where
  nextPin (peers : List Peer) (name fingerprintHex : String) (address : Option String) :
      List Peer :=
    let name := Text.trim name
    let fingerprintHex := Text.toAsciiLowercase fingerprintHex
    let address := address.map Text.trim
    if isPinned peers fingerprintHex then
      updatePeer fingerprintHex (Peer.rename name address) peers
    else peers ++ [⟨name, fingerprintHex, address⟩]

end BookCall

/-! ### What a call should do -/

/-- The fields of a peer are trimmed, in lower case, and pass their checks. -/
structure Peer.Valid (peer : Peer) : Prop where
  name : Text.trim peer.name = peer.name
  fingerprint : ∀ c ∈ peer.fingerprintHex.toList, Text.isLowerHexdigit c = true
  address : peer.address.map Text.trim = peer.address
  accepted : ∀ kind,
    validatePeerFields peer.name peer.fingerprintHex peer.address kind = .ok ()

/-- A list that can be kept: it is short, its entries are valid and no two have one
fingerprint. -/
structure ValidPeers (peers : List Peer) : Prop where
  few : peers.length ≤ maxTrustedPeers
  each : ∀ peer ∈ peers, peer.Valid
  distinct : (peers.map Peer.fingerprintHex).Nodup

/-- The file holds the list. -/
def PeerBook.Agrees (serde : SerdePeers) (b : PeerBook) : Prop :=
  loadOrCreate serde .works b.file = .ok b.peers

/-- An error leaves the list, and a success leaves it as it is in the file. -/
def PeerBook.Atomic (serde : SerdePeers) (b : PeerBook) (event : BookEvent) : Prop :=
  match b.step serde event with
  | (b', .error _) => b'.peers = b.peers
  | (b', .ok ()) => b'.Agrees serde

/-- A call is turned down, or it changes the list and its save gets through, or it changes
nothing and the file holds the list. -/
def PeerBook.Saves (serde : SerdePeers) (b : PeerBook) (event : BookEvent) : Prop :=
  match event.call with
  | .loadOrCreate => True
  | call =>
    call.refused b.peers = true ∨
      if call.next b.peers = b.peers then b.Agrees serde else event.disk.saves = true

/-- A fingerprint in the spelling it is looked up in. -/
def identity (fingerprintHex : String) : String :=
  Text.toAsciiLowercase (Text.trim fingerprintHex)

/-! ### Lists that pass the checks -/

lemma rejectAs_ok {kind : ErrorKind} {fault : Bool} {message : String} :
    rejectAs kind fault message = .ok () ↔ fault = false := by
  cases fault <;> simp [rejectAs]

section

variable {name fingerprintHex : String} {address : Option String} {kind : ErrorKind}
  {peer : Peer} {peers normal : List Peer}

lemma validatePeerFields_ok :
    validatePeerFields name fingerprintHex address kind = .ok () ↔
      (name.isEmpty || maxDeviceNameBytes < Text.len name || name.toList.any Text.isControl) =
          false ∧
        (Text.len fingerprintHex != 64 || !fingerprintHex.toList.all Text.isAsciiHexdigit) =
          false ∧
        (address.any fun address => address.isEmpty || maxPeerAddressBytes < Text.len address ||
          address.toList.any Text.isControl) = false := by
  unfold validatePeerFields
  rw [check_ok, check_ok, rejectAs_ok, rejectAs_ok, rejectAs_ok]

/-- Whether fields pass does not depend on the kind of the error. -/
lemma validatePeerFields_kind (h : validatePeerFields name fingerprintHex address kind = .ok ())
    (kind' : ErrorKind) : validatePeerFields name fingerprintHex address kind' = .ok () :=
  validatePeerFields_ok.mpr (validatePeerFields_ok.mp h)

lemma validatePeerFields_hexdigits
    (h : validatePeerFields name fingerprintHex address kind = .ok ()) :
    fingerprintHex.toList.all Text.isAsciiHexdigit = true := by
  obtain ⟨-, hfingerprint, -⟩ := validatePeerFields_ok.mp h
  rw [Bool.or_eq_false_iff, Bool.not_eq_false'] at hfingerprint
  exact hfingerprint.2

lemma map_trim_trim (address : Option String) :
    (address.map Text.trim).map Text.trim = address.map Text.trim := by
  cases address with
  | none => rfl
  | some address => rw [Option.map_some, Option.map_some, Text.trim_trim]

/-- What a pin or the normalization makes of fields that pass. -/
lemma valid_of_accepted
    (h : validatePeerFields (Text.trim name) (Text.toAsciiLowercase fingerprintHex)
      (address.map Text.trim) kind = .ok ()) :
    Peer.Valid ⟨Text.trim name, Text.toAsciiLowercase fingerprintHex, address.map Text.trim⟩ where
  name := Text.trim_trim name
  fingerprint :=
    (Text.hexdigits_toAsciiLowercase (validatePeerFields_hexdigits h)).1
  address := map_trim_trim address
  accepted := validatePeerFields_kind h

lemma Peer.Valid.normalize (h : peer.Valid) (kind : ErrorKind) :
    normalizePeer kind peer = .ok peer := by
  rw [normalizePeer, h.name, Text.toAsciiLowercase_eq_self h.fingerprint, h.address]
  exact bind_ok.mpr ⟨(), h.accepted kind, rfl⟩

lemma normalizePeer_ok {normal : Peer} (h : normalizePeer kind peer = .ok normal) :
    normal.Valid := by
  obtain ⟨⟨⟩, haccepted, h⟩ := bind_ok.mp h
  obtain rfl := Except.ok.inj h
  exact valid_of_accepted haccepted

lemma normalizePeers_of_valid (h : ∀ peer ∈ peers, peer.Valid) :
    normalizePeers kind peers = .ok peers := by
  induction peers with
  | nil => rfl
  | cons peer peers ih =>
    have hpeer := (h peer List.mem_cons_self).normalize kind
    have hpeers := ih fun p hp => h p (List.mem_cons_of_mem _ hp)
    exact bind_ok.mpr ⟨peer, hpeer, bind_ok.mpr ⟨peers, hpeers, rfl⟩⟩

lemma normalizePeers_ok (h : normalizePeers kind peers = .ok normal) :
    normal.length = peers.length ∧ ∀ peer ∈ normal, peer.Valid := by
  induction peers generalizing normal with
  | nil =>
    obtain rfl := Except.ok.inj h
    exact ⟨rfl, nofun⟩
  | cons peer peers ih =>
    obtain ⟨first, hfirst, h⟩ := bind_ok.mp h
    obtain ⟨others, hothers, h⟩ := bind_ok.mp h
    obtain rfl := Except.ok.inj h
    obtain ⟨hlen, hvalid⟩ := ih hothers
    refine ⟨by rw [List.length_cons, List.length_cons, hlen], ?_⟩
    intro p hp
    rcases List.mem_cons.mp hp with rfl | hp
    · exact normalizePeer_ok hfirst
    · exact hvalid p hp

/-- A valid list passes as it is. -/
lemma ValidPeers.normalize (h : ValidPeers peers) (kind : ErrorKind) :
    normalizeAndValidatePeers peers kind = .ok peers := by
  rw [normalizeAndValidatePeers, if_neg (Nat.not_lt.mpr h.few)]
  refine bind_ok.mpr ⟨peers, normalizePeers_of_valid h.each, bind_ok.mpr ⟨(), ?_, rfl⟩⟩
  rw [rejectAs_ok, Bool.not_eq_false', decide_eq_true_eq]
  exact h.distinct

/-- What passes is a valid list. -/
lemma normalizeAndValidatePeers_ok (h : normalizeAndValidatePeers peers kind = .ok normal) :
    ValidPeers normal := by
  rw [normalizeAndValidatePeers] at h
  split_ifs at h with hmany
  obtain ⟨listed, hlisted, h⟩ := bind_ok.mp h
  obtain ⟨⟨⟩, hdistinct, h⟩ := bind_ok.mp h
  obtain rfl := Except.ok.inj h
  obtain ⟨hlen, hvalid⟩ := normalizePeers_ok hlisted
  rw [rejectAs_ok, Bool.not_eq_false', decide_eq_true_eq] at hdistinct
  exact ⟨by omega, hvalid, hdistinct⟩

end

/-! ### Looking peers up -/

section

variable {serde : SerdePeers} {disk : Disk} {b : PeerBook} {peers : List Peer}
  {name fingerprintHex : String} {address : Option String} {call : BookCall}

lemma isPinned_iff {f : String} :
    isPinned peers f = true ↔ identity f ∈ peers.map Peer.fingerprintHex := by
  rw [isPinned, List.any_eq_true, List.mem_map]
  simp only [beq_iff_eq, identity]

lemma identity_hexdigits (h : ∀ c ∈ fingerprintHex.toList, Text.isLowerHexdigit c = true) :
    identity fingerprintHex = fingerprintHex := by
  rw [identity, Text.trim_hexdigits h, Text.toAsciiLowercase_eq_self h]

lemma isPinned_hexdigits (h : ∀ c ∈ fingerprintHex.toList, Text.isLowerHexdigit c = true) :
    isPinned peers fingerprintHex = true ↔ fingerprintHex ∈ peers.map Peer.fingerprintHex := by
  rw [isPinned_iff, identity_hexdigits h]

lemma map_updatePeer (name : String) (address : Option String) :
    (updatePeer fingerprintHex (Peer.rename name address) peers).map Peer.fingerprintHex =
      peers.map Peer.fingerprintHex := by
  induction peers with
  | nil => rfl
  | cons peer peers ih =>
    rw [updatePeer]
    split_ifs with hfirst
    · rfl
    · rw [List.map_cons, List.map_cons, ih]

/-- Only the first peer with the fingerprint is changed. -/
lemma updatePeer_eq_self {update : Peer → Peer} :
    updatePeer fingerprintHex update peers = peers ↔
      ∀ peer, (peers.find? fun peer => peer.fingerprintHex == fingerprintHex) = some peer →
        update peer = peer := by
  induction peers with
  | nil => exact iff_of_true rfl nofun
  | cons peer peers ih =>
    rw [updatePeer]
    by_cases hfirst : peer.fingerprintHex = fingerprintHex
    · have hfind : (peer :: peers).find? (fun p => p.fingerprintHex == fingerprintHex) =
          some peer := List.find?_cons_of_pos (beq_iff_eq.mpr hfirst)
      rw [if_pos hfirst, hfind, List.cons.injEq, and_iff_left rfl]
      constructor
      · intro h p hp
        exact Option.some.inj hp ▸ h
      · intro h
        exact h peer rfl
    · have hfind : (peer :: peers).find? (fun p => p.fingerprintHex == fingerprintHex) =
          peers.find? fun p => p.fingerprintHex == fingerprintHex :=
        List.find?_cons_of_neg (by rwa [beq_iff_eq])
      rw [if_neg hfirst, hfind, List.cons.injEq, and_iff_right rfl, ih]

lemma mem_updatePeer {update : Peer → Peer} {peer : Peer}
    (h : peer ∈ updatePeer fingerprintHex update peers) :
    peer ∈ peers ∨ ∃ p ∈ peers, p.fingerprintHex = fingerprintHex ∧ peer = update p := by
  induction peers with
  | nil => cases h
  | cons first peers ih =>
    rw [updatePeer] at h
    split_ifs at h with hfirst
    · rcases List.mem_cons.mp h with rfl | h
      · exact Or.inr ⟨first, List.mem_cons_self, hfirst, rfl⟩
      · exact Or.inl (List.mem_cons_of_mem _ h)
    · rcases List.mem_cons.mp h with rfl | h
      · exact Or.inl List.mem_cons_self
      · rcases ih h with h | ⟨p, hp, hfp, rfl⟩
        · exact Or.inl (List.mem_cons_of_mem _ h)
        · exact Or.inr ⟨p, List.mem_cons_of_mem _ hp, hfp, rfl⟩

/-- What lets a pin go ahead. -/
lemma refusedPin_eq_false
    (h : BookCall.refused.refusedPin peers name fingerprintHex address = false) :
    validatePeerFields (Text.trim name) (Text.toAsciiLowercase fingerprintHex)
        (address.map Text.trim) .invalidInput = .ok () ∧
      (isPinned peers (Text.toAsciiLowercase fingerprintHex) = true ∨
        peers.length < maxTrustedPeers) := by
  rw [BookCall.refused.refusedPin, Bool.or_eq_false_iff, Bool.not_eq_false'] at h
  obtain ⟨hok, hroom⟩ := h
  constructor
  · cases hfields : validatePeerFields (Text.trim name) (Text.toAsciiLowercase fingerprintHex)
        (address.map Text.trim) .invalidInput with
    | error e =>
      rw [hfields] at hok
      cases hok
    | ok u => rfl
  · by_contra hfull
    rw [not_or, Bool.not_eq_true, not_lt] at hfull
    rw [hfull.1, Bool.not_false, Bool.true_and, decide_eq_false_iff_not] at hroom
    exact hroom hfull.2

/-- A valid peer takes over a valid name and address. -/
lemma Peer.Valid.rename {peer new : Peer} (h : peer.Valid) (hnew : new.Valid) :
    (peer.rename new.name new.address).Valid := by
  have hold := validatePeerFields_ok.mp (h.accepted .invalidInput)
  have hfields := validatePeerFields_ok.mp (hnew.accepted .invalidInput)
  cases haddress : new.address with
  | none =>
    refine ⟨hnew.name, h.fingerprint, h.address, fun kind => ?_⟩
    exact validatePeerFields_ok.mpr ⟨hfields.1, hold.2.1, hold.2.2⟩
  | some address =>
    have htrim := hnew.address
    rw [haddress] at hfields htrim
    refine ⟨hnew.name, h.fingerprint, htrim, fun kind => ?_⟩
    exact validatePeerFields_ok.mpr ⟨hfields.1, hold.2.1, hfields.2.2⟩

/-- A pin that goes ahead keeps the list valid. -/
lemma ValidPeers.nextPin (h : ValidPeers peers)
    (hgo : BookCall.refused.refusedPin peers name fingerprintHex address = false) :
    ValidPeers (BookCall.next.nextPin peers name fingerprintHex address) := by
  obtain ⟨hfields, hroom⟩ := refusedPin_eq_false hgo
  have hnew := valid_of_accepted hfields
  have hpinned : isPinned peers (Text.toAsciiLowercase fingerprintHex) = true ↔ _ :=
    isPinned_hexdigits hnew.fingerprint
  rw [BookCall.next.nextPin]
  split_ifs with hknown
  · refine ⟨?_, ?_, ?_⟩
    · rw [← List.length_map (f := Peer.fingerprintHex), map_updatePeer, List.length_map]
      exact h.few
    · intro peer hpeer
      rcases mem_updatePeer hpeer with hpeer | ⟨p, hp, hfp, rfl⟩
      · exact h.each peer hpeer
      · have hrenamed := (h.each p hp).rename hnew
        exact hrenamed
    · rw [map_updatePeer]
      exact h.distinct
  · rw [hpinned] at hknown
    refine ⟨?_, ?_, ?_⟩
    · rw [List.length_append, List.length_singleton]
      rcases hroom with hin | hroom
      · exact absurd (hpinned.mp hin) hknown
      · omega
    · intro peer hpeer
      rcases List.mem_append.mp hpeer with hpeer | hpeer
      · exact h.each peer hpeer
      · obtain rfl := List.mem_singleton.mp hpeer
        exact hnew
    · rw [List.map_append, List.map_singleton, List.nodup_append]
      refine ⟨h.distinct, List.pairwise_singleton _ _, ?_⟩
      intro f hf g hg heq
      obtain rfl := List.mem_singleton.mp hg
      obtain rfl : f = Text.toAsciiLowercase fingerprintHex := heq
      exact hknown hf

lemma ValidPeers.next (h : ValidPeers peers) (hgo : call.refused peers = false) :
    ValidPeers (call.next peers) := by
  cases call with
  | loadOrCreate => exact h
  | pin name fingerprintHex => exact h.nextPin hgo
  | pinWithAddress name fingerprintHex address => exact h.nextPin hgo
  | unpin fingerprintHex =>
    refine ⟨(List.length_filter_le _ _).trans h.few, fun peer hpeer => ?_, ?_⟩
    · exact h.each peer (List.mem_of_mem_filter hpeer)
    · exact h.distinct.sublist (List.filter_sublist.map _)

/-! ### One call -/

/-- A valid list is saved as it is, or the file stays. -/
lemma PeerBook.save_cases (hserde : serde.Keeps b.peers) (hvalid : ValidPeers b.peers)
    (disk : Disk) :
    disk.saves = true ∧ (∃ file, b.save serde disk = ({ b with file }, .ok ()) ∧
        loadOrCreate serde .works file = .ok b.peers) ∨
      disk.saves = false ∧ ∃ e, b.save serde disk = (b, .error e) := by
  obtain ⟨bytes, hwrite, hread⟩ := hserde
  have hload : loadOrCreate serde .works (some bytes) = .ok b.peers := by
    simp only [loadOrCreate, readPeers, Disk.works, fileResult, hread, bind, Except.bind,
      hvalid.normalize, checked]
  unfold PeerBook.save
  rw [hvalid.normalize]
  rcases hdir : disk.createDir with e | u
  · exact Or.inr ⟨by rw [Disk.saves, hdir]; rfl, _, rfl⟩
  · simp only [checked, fileResult, hwrite]
    rcases hfile : disk.write with e | u
    · exact Or.inr ⟨by rw [Disk.saves, hdir, hfile]; rfl, _, rfl⟩
    · exact Or.inl ⟨by rw [Disk.saves, hdir, hfile]; rfl, _, rfl, hload⟩

lemma checked_ok {α : Type} {x : IoResult α} {a : α} : checked x = .ok a ↔ x = .ok a := by
  cases x <;> simp [checked]

/-- What is loaded is valid, and is loaded again. -/
lemma loadOrCreate_ok {file : Option (List UInt8)} (h : loadOrCreate serde disk file = .ok peers) :
    ValidPeers peers ∧ loadOrCreate serde .works file = .ok peers := by
  obtain ⟨listed, hlisted, hchecked⟩ := bind_ok.mp h
  refine ⟨normalizeAndValidatePeers_ok (checked_ok.mp hchecked), bind_ok.mpr ⟨listed, ?_, hchecked⟩⟩
  cases file with
  | none => exact hlisted
  | some bytes => exact check_ok.mpr ⟨rfl, (check_ok.mp hlisted).2⟩

/-- What a pin can do. -/
lemma PeerBook.pinWithAddress_cases (serde : SerdePeers) (disk : Disk) (b : PeerBook)
    (name fingerprintHex : String) (address : Option String) :
    (BookCall.refused.refusedPin b.peers name fingerprintHex address = true ∧
        ∃ e, b.pinWithAddress serde disk name fingerprintHex address = (b, .error e)) ∨
      BookCall.refused.refusedPin b.peers name fingerprintHex address = false ∧
        b.pinWithAddress serde disk name fingerprintHex address =
          if BookCall.next.nextPin b.peers name fingerprintHex address = b.peers then (b, .ok ())
          else
            PeerBook.save serde disk
              { b with peers := BookCall.next.nextPin b.peers name fingerprintHex address } := by
  unfold PeerBook.pinWithAddress BookCall.refused.refusedPin BookCall.next.nextPin
  generalize Text.trim name = name
  generalize Text.toAsciiLowercase fingerprintHex = fingerprintHex
  generalize address.map Text.trim = address
  dsimp only
  cases hfields : validatePeerFields name fingerprintHex address .invalidInput with
  | error e => exact Or.inl ⟨rfl, _, rfl⟩
  | ok u =>
    dsimp only [checked]
    by_cases hpinned : isPinned b.peers fingerprintHex = true
    · right
      have hself : updatePeer fingerprintHex (Peer.rename name address) b.peers = b.peers ↔ _ :=
        updatePeer_eq_self
      simp only [hpinned, if_true, Bool.true_eq_false, if_false]
      refine ⟨rfl, ?_⟩
      rcases hfind : b.peers.find? fun peer => peer.fingerprintHex == fingerprintHex with _ | peer
      · have hnext := hself.mpr fun p hp => by
          rw [hfind] at hp
          cases hp
        simp only [hfind, if_pos hnext]
      · by_cases hsame : peer.rename name address = peer
        · have hnext := hself.mpr fun p hp => by
            rw [hfind] at hp
            exact Option.some.inj hp ▸ hsame
          simp only [hfind, if_pos hsame, if_pos hnext]
        · have hnext := fun h => hsame (hself.mp h peer hfind)
          simp only [hfind, if_neg hsame, if_neg hnext]
    · rw [Bool.not_eq_true] at hpinned
      have hlonger : b.peers ++ [⟨name, fingerprintHex, address⟩] ≠ b.peers := by simp
      simp only [hpinned, if_true, Bool.false_eq_true, if_false, if_neg hlonger]
      by_cases hfull : maxTrustedPeers ≤ b.peers.length
      · left
        rw [if_pos hfull, decide_eq_true hfull]
        exact ⟨rfl, _, rfl⟩
      · right
        rw [if_neg hfull, decide_eq_false hfull]
        exact ⟨rfl, rfl⟩

/-- A load takes the list over, or fails. -/
lemma PeerBook.load_cases (serde : SerdePeers) (b : PeerBook) (event : BookEvent)
    (hload : event.call = .loadOrCreate) :
    (∃ e, b.step serde event = (b, .error e)) ∨
      ∃ peers, loadOrCreate serde event.disk b.file = .ok peers ∧
        b.step serde event = ({ b with peers }, .ok ()) := by
  cases hloaded : loadOrCreate serde event.disk b.file with
  | error e =>
    refine Or.inl ⟨e, ?_⟩
    simp only [PeerBook.step, hload, hloaded]
  | ok peers =>
    refine Or.inr ⟨peers, rfl, ?_⟩
    simp only [PeerBook.step, hload, hloaded]

/-- What a call can do, if it does not load: it is turned down, or goes on to its list. -/
lemma PeerBook.step_cases (serde : SerdePeers) (b : PeerBook) (event : BookEvent)
    (hload : event.call ≠ .loadOrCreate) :
    (event.call.refused b.peers = true ∧ ∃ e, b.step serde event = (b, .error e)) ∨
      event.call.refused b.peers = false ∧
        b.step serde event =
          if event.call.next b.peers = b.peers then (b, .ok ())
          else PeerBook.save serde event.disk { b with peers := event.call.next b.peers } := by
  obtain ⟨call, disk⟩ := event
  cases call with
  | loadOrCreate => exact absurd rfl hload
  | pin name fingerprintHex => exact b.pinWithAddress_cases serde disk name fingerprintHex none
  | pinWithAddress name fingerprintHex address =>
    exact b.pinWithAddress_cases serde disk name fingerprintHex address
  | unpin fingerprintHex =>
    right
    refine ⟨rfl, ?_⟩
    have hself : ((BookCall.unpin fingerprintHex).next b.peers).length = b.peers.length ↔
        (BookCall.unpin fingerprintHex).next b.peers = b.peers := by
      rw [BookCall.next, List.length_filter_eq_length_iff, List.filter_eq_self]
    simp only [PeerBook.step, PeerBook.unpin]
    rw [← BookCall.next]
    by_cases hsame : (BookCall.unpin fingerprintHex).next b.peers = b.peers
    · rw [if_pos (hself.mpr hsame), if_pos hsame]
    · rw [if_neg fun h => hsame (hself.mp h), if_neg hsame]
      rcases PeerBook.save serde disk
        { b with peers := (BookCall.unpin fingerprintHex).next b.peers } with ⟨b', e | u⟩
      · rfl
      · rfl

/-- How a call on a valid list can end, if it does not load. -/
lemma PeerBook.step_outcomes {event : BookEvent} (hvalid : ValidPeers b.peers)
    (hserde : serde.Keeps (event.call.next b.peers)) (hload : event.call ≠ .loadOrCreate) :
    (event.call.refused b.peers = true ∧ ∃ e, b.step serde event = (b, .error e)) ∨
      event.call.refused b.peers = false ∧
        ((event.call.next b.peers = b.peers ∧ b.step serde event = (b, .ok ())) ∨
          event.call.next b.peers ≠ b.peers ∧
            ((event.disk.saves = true ∧ ∃ file,
                b.step serde event = (⟨event.call.next b.peers, file⟩, .ok ()) ∧
                  loadOrCreate serde .works file = .ok (event.call.next b.peers)) ∨
              event.disk.saves = false ∧ ∃ e,
                b.step serde event = (⟨event.call.next b.peers, b.file⟩, .error e))) := by
  rcases b.step_cases serde event hload with hrefused | ⟨hgo, hstep⟩
  · exact Or.inl hrefused
  · refine Or.inr ⟨hgo, ?_⟩
    by_cases hsame : event.call.next b.peers = b.peers
    · rw [if_pos hsame] at hstep
      exact Or.inl ⟨hsame, hstep⟩
    · rw [if_neg hsame] at hstep
      rw [hstep]
      exact Or.inr ⟨hsame, PeerBook.save_cases (b := ⟨event.call.next b.peers, b.file⟩) hserde
        (hvalid.next hgo) event.disk⟩

lemma PeerBook.saves_iff (hload : call ≠ .loadOrCreate) :
    b.Saves serde ⟨call, disk⟩ ↔ call.refused b.peers = true ∨
      if call.next b.peers = b.peers then b.Agrees serde else disk.saves = true := by
  cases call with
  | loadOrCreate => exact absurd rfl hload
  | pin | pinWithAddress | unpin => exact Iff.rfl

/-- **When a call is atomic**. With a valid list, a call that fails leaves the list and one that
succeeds leaves it as it is in the file, exactly if the call is turned down, or changes the list
and its save gets through, or changes nothing and the file held the list. -/
theorem PeerBook.atomic_iff_saves {event : BookEvent} (hvalid : ValidPeers b.peers)
    (hserde : serde.Keeps (event.call.next b.peers)) :
    b.Atomic serde event ↔ b.Saves serde event := by
  obtain ⟨call, disk⟩ := event
  by_cases hload : call = .loadOrCreate
  · subst hload
    refine iff_of_true ?_ trivial
    rw [PeerBook.Atomic]
    rcases b.load_cases serde ⟨_, disk⟩ rfl with ⟨e, hstep⟩ | ⟨peers, hloaded, hstep⟩
    · rw [hstep]
    · rw [hstep]
      exact (loadOrCreate_ok hloaded).2
  · rw [PeerBook.saves_iff hload, PeerBook.Atomic]
    rcases PeerBook.step_outcomes hvalid hserde hload with ⟨hrefused, e, hstep⟩ |
      ⟨hgo, ⟨hsame, hstep⟩ | ⟨hnew, ⟨hok, file, hstep, hfile⟩ | ⟨hfail, e, hstep⟩⟩⟩
    · rw [hstep]
      exact iff_of_true rfl (Or.inl hrefused)
    · have hgo : call.refused b.peers = false := hgo
      rw [hstep, hgo, if_pos hsame, or_iff_right Bool.false_ne_true]
    · rw [hstep, if_neg hnew]
      exact iff_of_true hfile (Or.inr hok)
    · have hgo : call.refused b.peers = false := hgo
      have hfail : disk.saves = false := hfail
      rw [hstep, hgo, if_neg hnew, hfail, or_self]
      exact iff_of_false hnew Bool.false_ne_true

/-! ### A book with one peer -/

/-- A JSON library that knows the text of one list. -/
def SerdePeers.knowing (peers : List Peer) (text : List UInt8) : SerdePeers where
  toVecPretty listed := if listed = peers then .ok text else .error "unknown list"
  fromSlice bytes := if bytes = text then .ok peers else .error "expected value"

lemma SerdePeers.knowing_keeps (peers : List Peer) (text : List UInt8) :
    (knowing peers text).Keeps peers := ⟨text, if_pos rfl, if_pos rfl⟩

def officeFingerprint : String := String.ofList (List.replicate 64 'a')

def officePeer : Peer := ⟨"office", officeFingerprint, none⟩

/-- The list with this peer, as it is written. -/
def officeJson : List UInt8 :=
  Text.utf8 ("[\n  \x7b\n    \"name\": \"office\",\n    \"fingerprint_hex\": \"" ++
    officeFingerprint ++ "\",\n    \"address\": null\n  \x7d\n]").toList

def officeSerde : SerdePeers := .knowing [officePeer] officeJson

def pinOffice : BookCall := .pin "office" officeFingerprint

/-- A digit over and over. -/
lemma digit_replicate (n : ℕ) :
    (∀ c ∈ (String.ofList (List.replicate n 'a')).toList, Text.isLowerHexdigit c = true) ∧
      (String.ofList (List.replicate n 'a')).toList.all Text.isAsciiHexdigit = true ∧
      Text.len (String.ofList (List.replicate n 'a')) = n := by
  have heach : ∀ c ∈ List.replicate n 'a', c = 'a' := fun c hc => (List.mem_replicate.mp hc).2
  rw [Text.len_eq, String.toList_ofList]
  refine ⟨fun c hc => ?_, ?_, ?_⟩
  · obtain rfl := heach c hc
    rfl
  · rw [List.all_eq_true]
    intro c hc
    obtain rfl := heach c hc
    rfl
  · rw [Text.utf8Len_ascii, List.length_replicate]
    intro c hc
    obtain rfl := heach c hc
    decide

lemma officeFingerprint_hexdigits :
    ∀ c ∈ officeFingerprint.toList, Text.isLowerHexdigit c = true := (digit_replicate 64).1

lemma officePeer_valid : officePeer.Valid where
  name := by decide +kernel
  fingerprint := officeFingerprint_hexdigits
  address := rfl
  accepted kind := by
    obtain ⟨-, hdigits, hlen⟩ := digit_replicate 64
    refine validatePeerFields_ok.mpr ⟨by decide +kernel, ?_, rfl⟩
    exact Bool.or_eq_false_iff.mpr ⟨bne_eq_false_iff_eq.mpr hlen, congrArg (!·) hdigits⟩

/-- It is pinned as it is. -/
lemma pinOffice_next : pinOffice.refused [] = false ∧ pinOffice.next [] = [officePeer] := by
  have hname := officePeer_valid.name
  have hfingerprint := Text.toAsciiLowercase_eq_self officeFingerprint_hexdigits
  have haccepted := officePeer_valid.accepted .invalidInput
  rw [officePeer] at hname haccepted
  constructor
  · simp only [pinOffice, BookCall.refused, BookCall.refused.refusedPin, hname, hfingerprint,
      Option.map_none, haccepted]
    rfl
  · simp only [pinOffice, BookCall.next, BookCall.next.nextPin, hname, hfingerprint, officePeer]
    rfl

def PeerBook.empty : PeerBook := ⟨[], none⟩

lemma PeerBook.empty_loaded : PeerBook.empty.Agrees officeSerde := rfl

lemma PeerBook.empty_valid : ValidPeers PeerBook.empty.peers := (loadOrCreate_ok empty_loaded).1

lemma PeerBook.keeps_pinOffice : officeSerde.Keeps (pinOffice.next PeerBook.empty.peers) := by
  have hnext : pinOffice.next PeerBook.empty.peers = [officePeer] := pinOffice_next.2
  rw [hnext]
  exact SerdePeers.knowing_keeps _ _

/-- The pin is saved, or it is not; the peer is in the list. -/
lemma PeerBook.pinOffice_step (disk : Disk) :
    disk.saves = true ∧ (∃ file, PeerBook.empty.step officeSerde ⟨pinOffice, disk⟩ =
        (⟨[officePeer], file⟩, .ok ())) ∨
      disk.saves = false ∧ ∃ e, PeerBook.empty.step officeSerde ⟨pinOffice, disk⟩ =
        (⟨[officePeer], none⟩, .error e) := by
  have hgo : pinOffice.refused PeerBook.empty.peers = false := pinOffice_next.1
  have hnext : pinOffice.next PeerBook.empty.peers = [officePeer] := pinOffice_next.2
  have hload : (⟨pinOffice, disk⟩ : BookEvent).call ≠ .loadOrCreate := nofun
  rcases PeerBook.step_outcomes empty_valid keeps_pinOffice hload with ⟨hrefused, -⟩ |
    ⟨-, ⟨hsame, -⟩ | ⟨-, ⟨hok, file, hstep, -⟩ | ⟨hfail, e, hstep⟩⟩⟩
  · cases hgo.symm.trans hrefused
  · cases hnext.symm.trans hsame
  · exact Or.inl ⟨hok, file, hnext ▸ hstep⟩
  · exact Or.inr ⟨hfail, e, hnext ▸ hstep⟩

theorem PeerBook.atomic_pin : PeerBook.empty.Atomic officeSerde ⟨pinOffice, .works⟩ := by
  have hiff : PeerBook.empty.Atomic officeSerde ⟨pinOffice, .works⟩ ↔ _ :=
    PeerBook.atomic_iff_saves empty_valid keeps_pinOffice
  have hnext : pinOffice.next PeerBook.empty.peers = [officePeer] := pinOffice_next.2
  have hchanged : [officePeer] ≠ PeerBook.empty.peers := List.cons_ne_nil _ _
  have hload : pinOffice ≠ .loadOrCreate := nofun
  rw [hiff, PeerBook.saves_iff hload, hnext, if_neg hchanged]
  exact Or.inr rfl

def Disk.full : Disk := ⟨.ok (), .ok (), .error "no space left on device"⟩

lemma PeerBook.not_atomic {b' : PeerBook} {event : BookEvent} {e : BookError}
    (hstep : b.step serde event = (b', .error e)) (hne : b'.peers ≠ b.peers) :
    ¬b.Atomic serde event := by
  rw [PeerBook.Atomic, hstep]
  exact hne

/-- The disk is full: the pin fails, and the peer is pinned. -/
theorem PeerBook.unsaved_pin_stays :
    ValidPeers PeerBook.empty.peers ∧ PeerBook.empty.Agrees officeSerde ∧
      ¬PeerBook.empty.Atomic officeSerde ⟨pinOffice, .full⟩ := by
  refine ⟨empty_valid, empty_loaded, ?_⟩
  rcases PeerBook.pinOffice_step .full with ⟨hok, -⟩ | ⟨-, e, hstep⟩
  · cases hok
  · exact PeerBook.not_atomic hstep (List.cons_ne_nil _ _)

end

end TheKvm

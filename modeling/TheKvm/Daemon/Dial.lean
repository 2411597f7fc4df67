import TheKvm.Daemon.Admission
import TheKvm.Lib.Trace
import TheKvm.Ui.Revocation

/-!
Dialing peers: whom a session is with, and what the books learn from it.

A process has the book it loaded, which it also writes to the file of its user, and there is a
book of the system. A session is opened to an address, with an intended peer or none, and is
refused unless the certificate that answers is pinned. The address is then noted in the file. A
link that was dialed is kept warm for later episodes.
-/

namespace TheKvm.Dial

/-! ### Addresses -/

/-- `std::net::SocketAddr`. -/
structure SocketAddr where
  ip : String
  port : UInt16
  deriving DecidableEq

def SocketAddr.text (addr : SocketAddr) : String := addr.ip ++ ":" ++ toString addr.port.toNat

def defaultPort : UInt16 := 42110

/-- `peer_fingerprint`: the digest of a certificate, in hexadecimal. -/
abbrev Presented := {f : String // ∀ c ∈ f.toList, Text.isLowerHexdigit c = true}

/-- What answers at an address: the fingerprint of its certificate, and what the first stream
comes to. -/
structure Answer where
  presented : Presented
  hello : Except (List String) Unit

/-- The network while an attempt lasts. -/
structure Network where
  /-- `str::parse` -/
  parse : String → Option SocketAddr
  /-- `to_socket_addrs` -/
  lookup : String → Except String SocketAddr
  /-- What answers the identity that is shown. -/
  answers : String → SocketAddr → Except String Answer

def normalizeAddr (net : Network) (address : String) : Except String SocketAddr :=
  let withPort :=
    if (net.parse address).isSome || Text.contains address ":" then address
    else address ++ ":" ++ toString defaultPort.toNat
  match net.parse withPort with
  | some addr => .ok addr
  | none => net.lookup withPort

/-- Who has the address, by a book. -/
def savedPeerFingerprint (net : Network) (peers : List Peer) (addr : SocketAddr) : Option String :=
  peers.findSome? fun peer =>
    match peer.address.map (normalizeAddr net) with
    | some (.ok saved) => if saved = addr then some peer.fingerprintHex else none
    | _ => none

/-- A peer's own address, or that of one with its name. -/
def resolvePeerAddress (peers : List Peer) (fingerprint peerName : String) :
    Except (List String) String :=
  let own := (peers.find? (·.fingerprintHex = fingerprint)).bind Peer.address
  let sibling := (peers.find? fun peer =>
    peer.fingerprintHex ≠ fingerprint && !(Text.trim peer.name).isEmpty &&
      peer.name = peerName).bind Peer.address
  let filled (address : Option String) := address.filter fun a => !(Text.trim a).isEmpty
  match (filled own).or (filled sibling) with
  | some address => .ok address
  | none => .error ["target screen peer has no saved address"]

/-! ### One attempt -/

/-- A connection that was let through, and what it was let through by. -/
structure Connection where
  presented : Presented
  address : String
  remote : SocketAddr
  intended : Option String
  /-- Who has the address by the book. -/
  owner : Option String
  book : List Peer

def parseFingerprint (value : String) : Except String String :=
  if Text.len value ≠ 64 then .error "peer fingerprint must contain 64 hexadecimal characters"
  else if !value.toList.all Text.isAsciiHexdigit then
    .error "peer fingerprint contains non-hexadecimal data"
  else .ok (Text.toAsciiLowercase value)

/-- The fingerprint that the handshake asks for. -/
def pinTo (intended owner : Option String) : Option String :=
  match intended, owner with
  | some intended, some owner => if owner = intended then some intended else none
  | some intended, none => some intended
  | none, owner => owner

/-- `make_pinned_client_endpoint`, or an endpoint that takes any certificate. -/
def expectedFingerprint (intended owner : Option String) : Except String (Option String) :=
  match pinTo intended owner with
  | none => .ok none
  | some fingerprint => (parseFingerprint fingerprint).map some

def connectInput (net : Network) (own : String) (mode : Mode) (peers : List Peer)
    (address : String) (intended : Option String) : Except (List String) Connection :=
  if Admission.modeAllowsOutgoing mode = false then
    .error ["receiver-only mode cannot initiate an input session"]
  else
    match normalizeAddr net address with
    | .error e => .error [e]
    | .ok addr =>
      let owner := savedPeerFingerprint net peers addr
      match expectedFingerprint intended owner with
      | .error e => .error [e]
      | .ok expected =>
        match net.answers own addr with
        | .error e => .error [e]
        | .ok answer =>
          if expected.any fun fingerprint => fingerprint ≠ answer.presented.val then
            .error ["server certificate fingerprint does not match the paired peer"]
          else if isPinned peers answer.presented.val = false then
            .error ["peer " ++ addr.text ++ " is not paired (fingerprint " ++
              answer.presented.val ++ ")"]
          else
            match answer.hello with
            | .error chain => .error chain
            | .ok () => .ok ⟨answer.presented, address, addr, intended, owner, peers⟩

def unknownPeerRejection (chain : List String) : Bool :=
  chain.any fun cause => Text.contains cause "is not paired"

/-! ### The books -/

/-- The books, and the link that is kept warm for a peer. -/
structure Books where
  /-- the file of the user -/
  file : List Peer
  /-- the file of the system -/
  system : List Peer
  /-- what this process has in memory, and writes to the file of the user -/
  live : List Peer
  warm : Option (Connection × String)
  /-- The connections that streams were opened on. -/
  sessions : List Connection

/-- The pin that notes an address, under the name the peer has in the file. -/
def noteCall (file : List Peer) (fingerprint address : String) : BookCall :=
  .pinWithAddress (((file.find? (·.fingerprintHex = fingerprint)).map Peer.name).getD fingerprint)
    fingerprint (some address)

/-- `note_peer_address`, if the file can be loaded and be saved. -/
def notePeerAddress (loads saves : Bool) (file : List Peer) (fingerprint : Presented)
    (address : String) : List Peer :=
  if loads && saves then
    if (file.find? (·.fingerprintHex = fingerprint.val)).bind Peer.address = some address then file
    else (noteCall file fingerprint.val address).done file
  else file

/-- A dial: where to, to whom, and what happens meanwhile. -/
structure Attempt where
  address : String
  intended : Option String
  mode : Mode
  /-- The fingerprint this computer shows. -/
  primary : String
  /-- The identity of the system, if it is another directory and can be read. -/
  system : Option String
  first : Network
  second : Network
  fileLoads : Bool
  systemLoads : Bool
  saves : Bool

/-- `load_fallback_dial`: the other identity, with what both books pin. -/
def loadFallbackDial (s : Books) (d : Attempt) : Option (String × List Peer) :=
  match d.system with
  | none => none
  | some identity =>
    if identity = d.primary then none
    else if d.fileLoads = false then none
    else
      let peers := if d.systemLoads then s.system else []
      some (identity, peers.foldl (fun merged peer =>
        if isPinned merged peer.fingerprintHex then merged else merged ++ [peer]) s.file)

/-- `dial_session`, with the file as it leaves it. -/
def dialSession (s : Books) (d : Attempt) : Except (List String) Connection × List Peer :=
  match connectInput d.first d.primary d.mode s.live d.address d.intended with
  | .ok conn => (.ok conn, notePeerAddress d.fileLoads d.saves s.file conn.presented d.address)
  | .error chain =>
    if unknownPeerRejection chain = false then (.error chain, s.file)
    else
      match loadFallbackDial s d with
      | none => (.error chain, s.file)
      | some (identity, merged) =>
        match connectInput d.second identity d.mode merged d.address d.intended with
        | .ok conn =>
          (.ok conn, notePeerAddress d.fileLoads d.saves s.file conn.presented d.address)
        | .error chain => (.error chain, s.file)

/-- An episode that is to be opened with the peer of a screen. -/
structure Request where
  fingerprint : String
  peerName : String
  /-- The warm link was closed meanwhile. -/
  warmClosed : Bool
  /-- What a stream on the warm link comes to. -/
  warmHello : Except (List String) Unit
  /-- The stream is opened ahead of any crossing. -/
  prewarm : Bool
  /-- The dial, but for its address and its peer, and the one of the retry. -/
  attempt : Attempt
  again : Attempt
  /-- The link was closed before it was stored. -/
  storeClosed : Bool
  noteLoads : Bool
  noteSaves : Bool

/-- `take_warm_link`. -/
def takeWarmLink (s : Books) (r : Request) : Option Connection :=
  match s.warm with
  | some (conn, fingerprint) =>
    if fingerprint ≠ r.fingerprint || r.warmClosed then none else some conn
  | none => none

/-- `cold_topology_dial`. -/
def coldTopologyDial (s : Books) (r : Request) (liveFallback : Option String) :
    Except (List String) Connection × List Peer :=
  match resolvePeerAddress s.live r.fingerprint r.peerName with
  | .error chain => (.error chain, s.file)
  | .ok address =>
    match dialSession s { r.attempt with address, intended := some r.fingerprint } with
    | (.ok conn, file) => (.ok conn, file)
    | (.error chain, file) =>
      match liveFallback.filter (· ≠ address) with
      | none => (.error chain, file)
      | some live =>
        dialSession { s with file } { r.again with address := live, intended := some r.fingerprint }

def isLinkEndedRejection (chain : List String) : Bool :=
  chain.any fun cause => Text.contains cause "link ended"

/-- A link is kept warm for the peer it was asked for. -/
def storeWarmLink (r : Request) (conn : Connection) : Option (Connection × String) :=
  if r.storeClosed then none else some (conn, r.fingerprint)

/-- The dial of an episode, and what comes after it. -/
def openCold (s : Books) (r : Request) (liveFallback : Option String) : Books :=
  match coldTopologyDial s r liveFallback with
  | (.error _, file) => { s with file }
  | (.ok conn, file) =>
    { s with
      file :=
        if r.prewarm then file
        else notePeerAddress r.noteLoads r.noteSaves file conn.presented conn.address
      warm := storeWarmLink r conn
      sessions := s.sessions ++ [conn] }

/-- `open_topology_session`, or `prewarm_link_stream`: the warm link, or else a dial. -/
def openSession (s : Books) (r : Request) : Books :=
  let taken := takeWarmLink s r
  let liveFallback := if r.prewarm then none else taken.map fun conn => conn.remote.text
  let s := { s with warm := none }
  match taken with
  | none => openCold s r liveFallback
  | some conn =>
    match r.warmHello with
    | .ok () =>
      { s with
        warm := if r.prewarm then none else storeWarmLink r conn
        sessions := s.sessions ++ [conn] }
    | .error chain =>
      if r.prewarm && isLinkEndedRejection chain then s else openCold s r liveFallback

/-- Unpins of the ghosts in a book that was loaded, and what is saved of them. -/
def retireFrom (saves : Bool) (loaded file : List Peer) (ghosts : List String) :
    List Peer × List Peer :=
  ghosts.foldl (fun (loaded, file) ghost =>
    let next := (BookCall.unpin ghost).next loaded
    (next, if next.length ≠ loaded.length && saves then next else file)) (loaded, file)

/-- `retire_ghost_identities`. -/
def retireGhostIdentities (s : Books) (loads saves : Bool) (nodeName liveFingerprint : String) :
    Books :=
  if (Text.trim nodeName).isEmpty then s
  else
    let ghosts := (s.live.filter fun peer =>
      peer.name = nodeName && peer.fingerprintHex ≠ liveFingerprint).map Peer.fingerprintHex
    let file := if loads then (retireFrom saves s.file s.file ghosts).2 else s.file
    let (live, file) := retireFrom saves s.live file ghosts
    { s with live, file }

/-! ### Runs -/

/-- The books that calls are made on. -/
inductive Which
  | file | system | live

inductive Op
  /-- a pin or an unpin, by the user or a pairing, that is saved or not -/
  | call (book : Which) (call : BookCall) (saves : Bool)
  /-- the process loads its book again -/
  | reload
  | dial (attempt : Attempt)
  | episode (request : Request)
  /-- a peer of this name has opened a session -/
  | retire (loads saves : Bool) (nodeName liveFingerprint : String)

def step (s : Books) : Op → Books × Unit
  | .call .file call saves => ({ s with file := if saves then call.done s.file else s.file }, ())
  | .call .system call saves =>
    ({ s with system := if saves then call.done s.system else s.system }, ())
  | .call .live call saves =>
    ({ s with
        live := call.done s.live
        file := if saves && call.changes s.live then call.done s.live else s.file }, ())
  | .reload => ({ s with live := s.file }, ())
  | .dial d =>
    match dialSession s d with
    | (.ok conn, file) => ({ s with file, sessions := s.sessions ++ [conn] }, ())
    | (.error _, file) => ({ s with file }, ())
  | .episode r => (openSession s r, ())
  | .retire loads saves nodeName liveFingerprint =>
    (retireGhostIdentities s loads saves nodeName liveFingerprint, ())

def start (file system live : List Peer) : Books := ⟨file, system, live, none, []⟩

abbrev after (file system live : List Peer) (l : List Op) : Books :=
  Trace.final step (start file system live) l

/-! ### What a run may come to know -/

/-- What the calls on the books pin, and where. -/
def placed (l : List Op) : Set (String × Option String) :=
  {p | ∃ book saves, (∃ name fingerprintHex address,
      Op.call book (.pinWithAddress name fingerprintHex address) saves ∈ l ∧
        p = (Text.toAsciiLowercase fingerprintHex, address.map Text.trim)) ∨
    ∃ name fingerprintHex, Op.call book (.pin name fingerprintHex) saves ∈ l ∧
      p = (Text.toAsciiLowercase fingerprintHex, none)}

/-- The peers of the books before the first step. -/
def initial (file system live : List Peer) : List Peer := file ++ system ++ live

/-- Somebody pinned the fingerprint, before the run or by a call. -/
def Rooted (before : List Peer) (l : List Op) (fingerprint : String) : Prop :=
  (∃ peer ∈ before, peer.fingerprintHex = fingerprint) ∨
    ∃ address, (fingerprint, address) ∈ placed l

/-- The address is one that the peer was given, or that it answered at. -/
def Located (before : List Peer) (l : List Op) (sessions : List Connection)
    (fingerprint address : String) : Prop :=
  (∃ peer ∈ before, peer.fingerprintHex = fingerprint ∧ peer.address = some address) ∨
    (fingerprint, some address) ∈ placed l ∨
      ∃ conn ∈ sessions, conn.presented.val = fingerprint ∧ Text.trim conn.address = address

def Known (before : List Peer) (l : List Op) (sessions : List Connection) (peer : Peer) : Prop :=
  Rooted before l peer.fingerprintHex ∧
    ∀ address ∈ peer.address, Located before l sessions peer.fingerprintHex address

/-- A connection is with the peer that was meant, unless the book has the address under another
peer; and with that one, if none was meant. -/
def Connection.Aimed (conn : Connection) : Prop :=
  match conn.intended, conn.owner with
  | some intended, some owner =>
    owner = intended → conn.presented.val = Text.toAsciiLowercase intended
  | some intended, none => conn.presented.val = Text.toAsciiLowercase intended
  | none, some owner => conn.presented.val = Text.toAsciiLowercase owner
  | none, none => True

/-- What holds of everything that the process knows. -/
structure Sound (before : List Peer) (l : List Op) (s : Books) : Prop where
  file : ∀ peer ∈ s.file, Known before l s.sessions peer
  system : ∀ peer ∈ s.system, Known before l s.sessions peer
  live : ∀ peer ∈ s.live, Known before l s.sessions peer
  aimed : ∀ conn ∈ s.sessions, conn.Aimed ∧ Rooted before l conn.presented.val
  warm : ∀ p ∈ s.warm, p.1 ∈ s.sessions ∧ p.1.intended = some p.2

/-! ### What the parts do -/

section

variable {net : Network} {own address fingerprint : String} {mode : Mode} {peers file : List Peer}
  {intended : Option String} {conn : Connection} {peer : Peer} {call : BookCall}
  {before : List Peer} {l : List Op} {sessions : List Connection} {s : Books}

/-- What a connection was let through by. -/
lemma connectInput_ok (h : connectInput net own mode peers address intended = .ok conn) :
    conn.Aimed ∧ isPinned peers conn.presented.val = true ∧ conn.intended = intended ∧
      conn.address = address := by
  unfold connectInput at h
  split_ifs at h
  split at h
  · cases h
  · rename_i addr hnormal
    dsimp only at h
    split at h
    · cases h
    · rename_i expected hexpected
      split at h
      · cases h
      · rename_i answer hanswer
        split_ifs at h with hother hpinned
        rw [Bool.not_eq_false] at hpinned
        split at h
        · cases h
        · cases h
          refine ⟨?_, hpinned, rfl, rfl⟩
          have hpin : ∀ value, pinTo intended (savedPeerFingerprint net peers addr) = some value →
              answer.presented.val = Text.toAsciiLowercase value := by
            intro value hvalue
            unfold expectedFingerprint at hexpected
            rw [hvalue] at hexpected
            dsimp only at hexpected
            unfold parseFingerprint at hexpected
            split_ifs at hexpected
            · cases hexpected
            · cases hexpected
            · cases hexpected
              by_contra hne
              exact hother (by simpa using Ne.symm hne)
          unfold Connection.Aimed
          dsimp only
          cases hi : intended with
          | none =>
            cases ho : savedPeerFingerprint net peers addr with
            | none => trivial
            | some owner => exact hpin owner (by rw [hi, ho]; rfl)
          | some i =>
            cases ho : savedPeerFingerprint net peers addr with
            | none => exact hpin i (by rw [hi, ho]; rfl)
            | some owner =>
              intro heq
              exact hpin i (by rw [hi, ho]; exact if_pos heq)

/-- What both books pin is in one of them. -/
lemma mem_merged (added : List Peer) (h : peer ∈ added.foldl (fun merged peer =>
    if isPinned merged peer.fingerprintHex then merged else merged ++ [peer]) peers) :
    peer ∈ peers ∨ peer ∈ added := by
  induction added generalizing peers with
  | nil => exact Or.inl h
  | cons first added ih =>
    rw [List.foldl_cons] at h
    rcases ih h with h | h
    · split_ifs at h
      · exact Or.inl h
      · rcases List.mem_append.mp h with h | h
        · exact Or.inl h
        · rw [List.mem_singleton.mp h]
          exact Or.inr List.mem_cons_self
    · exact Or.inr (List.mem_cons_of_mem _ h)

lemma loadFallbackDial_mem {d : Attempt} {merged : List Peer}
    (h : loadFallbackDial s d = some (own, merged)) (hpeer : peer ∈ merged) :
    peer ∈ s.file ∨ peer ∈ s.system := by
  unfold loadFallbackDial at h
  split at h
  · cases h
  · split_ifs at h
    · cases h
      exact mem_merged _ hpeer
    · cases h
      exact (mem_merged _ hpeer).imp_right fun h => absurd h List.not_mem_nil

/-- A dial fails and leaves the file, or its connection is let through by a book and its address
is noted. -/
inductive Dialed (s : Books) (intended : Option String) :
    Except (List String) Connection × List Peer → Prop
  | failed (chain : List String) : Dialed s intended (.error chain, s.file)
  | reached (conn : Connection) (peers : List Peer) (loads saves : Bool) (haimed : conn.Aimed)
      (hintended : conn.intended = intended) (hpinned : isPinned peers conn.presented.val = true)
      (hpeers : ∀ peer ∈ peers, peer ∈ s.file ∨ peer ∈ s.system ∨ peer ∈ s.live) :
      Dialed s intended
        (.ok conn, notePeerAddress loads saves s.file conn.presented conn.address)

lemma dialed_session (s : Books) (d : Attempt) : Dialed s d.intended (dialSession s d) := by
  unfold dialSession
  cases hfirst : connectInput d.first d.primary d.mode s.live d.address d.intended with
  | ok conn =>
    obtain ⟨haimed, hpinned, hintended, haddress⟩ := connectInput_ok hfirst
    rw [← haddress]
    exact .reached conn s.live _ _ haimed hintended hpinned fun p hp => Or.inr (Or.inr hp)
  | error chain =>
    dsimp only
    split_ifs with hknown
    · exact .failed chain
    · cases hfallback : loadFallbackDial s d with
      | none => exact .failed chain
      | some alternate =>
        obtain ⟨other, merged⟩ := alternate
        dsimp only
        cases hsecond : connectInput d.second other d.mode merged d.address d.intended with
        | error chain' => exact .failed chain'
        | ok conn =>
          obtain ⟨haimed, hpinned, hintended, haddress⟩ := connectInput_ok hsecond
          rw [← haddress]
          refine .reached conn merged _ _ haimed hintended hpinned fun p hp => ?_
          exact (loadFallbackDial_mem hfallback hp).imp_right Or.inl

lemma dialed_topology (s : Books) (r : Request) (liveFallback : Option String) :
    Dialed s (some r.fingerprint) (coldTopologyDial s r liveFallback) := by
  unfold coldTopologyDial
  split
  · exact .failed _
  · rename_i address haddress
    have hfirst := dialed_session s
      { r.attempt with address := address, intended := some r.fingerprint }
    generalize dialSession s _ = result at hfirst
    cases hfirst with
    | reached conn peers loads saves haimed hintended hpinned hpeers =>
      exact .reached conn peers loads saves haimed hintended hpinned hpeers
    | failed chain =>
      dsimp only
      split
      · exact .failed chain
      · rename_i live hlive
        exact dialed_session s
          { r.again with address := live, intended := some r.fingerprint }

/-! ### What is known stays known -/

lemma placed_mono {l' : List Op} (h : l ⊆ l') : placed l ⊆ placed l' := by
  rintro p ⟨book, saves, ⟨name, fingerprint, address, hmem, rfl⟩ | ⟨name, fingerprint, hmem, rfl⟩⟩
  · exact ⟨book, saves, Or.inl ⟨name, fingerprint, address, h hmem, rfl⟩⟩
  · exact ⟨book, saves, Or.inr ⟨name, fingerprint, h hmem, rfl⟩⟩

lemma Rooted.mono {l' : List Op} (h : Rooted before l fingerprint) (hl : l ⊆ l') :
    Rooted before l' fingerprint :=
  h.imp_right fun ⟨address, hplaced⟩ => ⟨address, placed_mono hl hplaced⟩

lemma Known.mono {l' : List Op} {sessions' : List Connection} (h : Known before l sessions peer)
    (hl : l ⊆ l') (hsessions : sessions ⊆ sessions') : Known before l' sessions' peer := by
  refine ⟨h.1.mono hl, fun address haddress => ?_⟩
  rcases h.2 address haddress with hbefore | hplaced | ⟨conn, hconn, h⟩
  · exact Or.inl hbefore
  · exact Or.inr (Or.inl (placed_mono hl hplaced))
  · exact Or.inr (Or.inr ⟨conn, hsessions hconn, h⟩)

/-- A pin leaves the peers that were there, but for the name and the address of its own. -/
lemma mem_done_pinWithAddress {name : String} {address : Option String}
    (h : peer ∈ (BookCall.pinWithAddress name fingerprint address).done peers) :
    peer ∈ peers ∨ peer.fingerprintHex = Text.toAsciiLowercase fingerprint ∧
      (peer.address = address.map Text.trim ∨
        ∃ old ∈ peers, old.fingerprintHex = peer.fingerprintHex ∧ old.address = peer.address) := by
  unfold BookCall.done at h
  split_ifs at h with hrefused
  · exact Or.inl h
  · change peer ∈ BookCall.next.nextPin peers name fingerprint address at h
    unfold BookCall.next.nextPin at h
    dsimp only at h
    split_ifs at h with hpinned
    · rcases mem_updatePeer h with h | ⟨old, hold, hfp, rfl⟩
      · exact Or.inl h
      · refine Or.inr ⟨hfp, ?_⟩
        unfold Peer.rename
        dsimp only
        split_ifs
        · exact Or.inl rfl
        · exact Or.inr ⟨old, hold, rfl, rfl⟩
    · rcases List.mem_append.mp h with h | h
      · exact Or.inl h
      · rw [List.mem_singleton.mp h]
        exact Or.inr ⟨rfl, Or.inl rfl⟩

/-- What is pinned where it may be pinned is known. -/
lemma known_pinWithAddress {name : String} (address : Option String)
    (hknown : ∀ peer ∈ peers, Known before l sessions peer)
    (hrooted : Rooted before l (Text.toAsciiLowercase fingerprint))
    (hlocated : ∀ a ∈ address.map Text.trim,
      Located before l sessions (Text.toAsciiLowercase fingerprint) a)
    (h : peer ∈ (BookCall.pinWithAddress name fingerprint address).done peers) :
    Known before l sessions peer := by
  rcases mem_done_pinWithAddress h with h | ⟨hfp, haddress⟩
  · exact hknown peer h
  · refine ⟨hfp ▸ hrooted, fun a ha => ?_⟩
    rcases haddress with haddress | ⟨old, hold, hsame, haddress⟩
    · rw [haddress] at ha
      rw [hfp]
      exact hlocated a ha
    · rw [← haddress] at ha
      rw [← hsame]
      exact (hknown old hold).2 a ha

/-- The peers of a book after a call that the run has made. -/
lemma known_done {book : Which} {saves : Bool}
    (hknown : ∀ peer ∈ peers, Known before l sessions peer) (hcall : Op.call book call saves ∈ l)
    (h : peer ∈ call.done peers) : Known before l sessions peer := by
  cases call with
  | pinWithAddress name fingerprint address =>
    have hplaced : (Text.toAsciiLowercase fingerprint, address.map Text.trim) ∈ placed l :=
      ⟨book, saves, Or.inl ⟨name, fingerprint, address, hcall, rfl⟩⟩
    refine known_pinWithAddress address hknown (Or.inr ⟨_, hplaced⟩) (fun a ha => ?_) h
    rw [Option.mem_def] at ha
    rw [ha] at hplaced
    exact Or.inr (Or.inl hplaced)
  | pin name fingerprint =>
    have hplaced : (Text.toAsciiLowercase fingerprint, none) ∈ placed l :=
      ⟨book, saves, Or.inr ⟨name, fingerprint, hcall, rfl⟩⟩
    exact known_pinWithAddress none hknown (Or.inr ⟨_, hplaced⟩)
      (fun a ha => absurd ha (Option.not_mem_none a)) h
  | unpin fingerprint => exact hknown peer (List.mem_filter.mp h).1
  | loadOrCreate => exact hknown peer h

lemma Presented.lower (f : Presented) : Text.toAsciiLowercase f.val = f.val :=
  Text.toAsciiLowercase_eq_self f.property

/-- The file with a noted address. -/
lemma known_note {loads saves : Bool} (hknown : ∀ peer ∈ peers, Known before l sessions peer)
    (hrooted : Rooted before l conn.presented.val) (hconn : conn ∈ sessions)
    (h : peer ∈ notePeerAddress loads saves peers conn.presented conn.address) :
    Known before l sessions peer := by
  unfold notePeerAddress at h
  split_ifs at h
  · exact hknown peer h
  · refine known_pinWithAddress (some conn.address) hknown ?_ (fun a ha => ?_) h
    · rwa [conn.presented.lower]
    · rw [conn.presented.lower]
      refine Or.inr (Or.inr ⟨conn, hconn, rfl, ?_⟩)
      exact Option.some.inj ha
  · exact hknown peer h

lemma rooted_of_isPinned {f : Presented} (hknown : ∀ peer ∈ peers, Known before l sessions peer)
    (h : isPinned peers f.val = true) : Rooted before l f.val := by
  rw [isPinned_hexdigits f.property] at h
  obtain ⟨peer, hpeer, hfp⟩ := List.mem_map.mp h
  exact hfp ▸ (hknown peer hpeer).1

lemma retireFrom_mem (saves : Bool) (loaded file : List Peer) (ghosts : List String) :
    (∀ peer ∈ (retireFrom saves loaded file ghosts).1, peer ∈ loaded) ∧
      ∀ peer ∈ (retireFrom saves loaded file ghosts).2, peer ∈ loaded ∨ peer ∈ file := by
  induction ghosts generalizing loaded file with
  | nil => exact ⟨fun _ h => h, fun _ h => Or.inr h⟩
  | cons ghost ghosts ih =>
    obtain ⟨hloaded, hfile⟩ := ih ((BookCall.unpin ghost).next loaded)
      (if ((BookCall.unpin ghost).next loaded).length ≠ loaded.length && saves then
        (BookCall.unpin ghost).next loaded else file)
    have hsub : ∀ peer ∈ (BookCall.unpin ghost).next loaded, peer ∈ loaded :=
      fun peer h => (List.mem_filter.mp h).1
    refine ⟨fun peer h => hsub peer (hloaded peer h), fun peer h => ?_⟩
    rcases hfile peer h with h | h
    · exact Or.inl (hsub peer h)
    · split_ifs at h
      · exact Or.inl (hsub peer h)
      · exact Or.inr h

/-! ### Steps -/

lemma Sound.mono {l' : List Op} (h : Sound before l s) (hl : l ⊆ l') : Sound before l' s where
  file peer hpeer := (h.file peer hpeer).mono hl (List.Subset.refl _)
  system peer hpeer := (h.system peer hpeer).mono hl (List.Subset.refl _)
  live peer hpeer := (h.live peer hpeer).mono hl (List.Subset.refl _)
  aimed conn hconn := ⟨(h.aimed conn hconn).1, (h.aimed conn hconn).2.mono hl⟩
  warm := h.warm

/-- A connection that was dialed joins the sessions, and its address the file. -/
lemma Sound.reached {result : Except (List String) Connection × List Peer}
    (h : Sound before l s) (hdialed : Dialed s intended result) :
    (∀ chain, result.1 = .error chain → result.2 = s.file) ∧
      ∀ conn, result.1 = .ok conn → conn.intended = intended ∧
        Sound before l { s with file := result.2, sessions := s.sessions ++ [conn] } := by
  cases hdialed with
  | failed chain => exact ⟨fun _ _ => rfl, fun _ h => nomatch h⟩
  | reached conn peers loads saves haimed hintended hpinned hpeers =>
    refine ⟨fun _ h => (nomatch h), fun c hc => ?_⟩
    cases hc
    have hgrow : s.sessions ⊆ s.sessions ++ [conn] := List.subset_append_left _ _
    have hknown : ∀ peer ∈ peers, Known before l s.sessions peer := by
      intro peer hpeer
      rcases hpeers peer hpeer with h' | h' | h'
      · exact h.file peer h'
      · exact h.system peer h'
      · exact h.live peer h'
    have hrooted := rooted_of_isPinned hknown hpinned
    have hconn : conn ∈ s.sessions ++ [conn] := List.mem_append_right _ List.mem_cons_self
    refine ⟨hintended, ⟨fun peer hpeer => ?_, fun peer hpeer => ?_, fun peer hpeer => ?_,
      fun c hc => ?_, fun p hp => ?_⟩⟩
    · refine known_note (fun p hp => ?_) hrooted hconn hpeer
      exact (h.file p hp).mono (List.Subset.refl _) hgrow
    · exact (h.system peer hpeer).mono (List.Subset.refl _) hgrow
    · exact (h.live peer hpeer).mono (List.Subset.refl _) hgrow
    · rcases List.mem_append.mp hc with hc | hc
      · exact h.aimed c hc
      · rw [List.mem_singleton.mp hc]
        exact ⟨haimed, hrooted⟩
    · exact ⟨hgrow (h.warm p hp).1, (h.warm p hp).2⟩

lemma Sound.cold (h : Sound before l s) (r : Request) (liveFallback : Option String) :
    Sound before l (openCold s r liveFallback) := by
  obtain ⟨hfailed, hreached⟩ := h.reached (dialed_topology s r liveFallback)
  unfold openCold
  generalize coldTopologyDial s r liveFallback = result at hfailed hreached
  obtain ⟨_ | conn, file⟩ := result
  · have hfile : file = s.file := hfailed _ rfl
    rw [hfile]
    exact h
  · obtain ⟨hintended, hs⟩ := hreached conn rfl
    have hconn : conn ∈ s.sessions ++ [conn] := List.mem_append_right _ List.mem_cons_self
    refine ⟨fun peer hpeer => ?_, hs.system, hs.live, hs.aimed, fun p hp => ?_⟩
    · dsimp only at hpeer
      split_ifs at hpeer
      · exact hs.file peer hpeer
      · exact known_note hs.file (hs.aimed conn hconn).2 hconn hpeer
    · dsimp only [storeWarmLink] at hp
      split_ifs at hp
      · exact absurd hp (Option.not_mem_none p)
      · cases hp
        exact ⟨hconn, hintended⟩

lemma takeWarmLink_some {r : Request} (h : takeWarmLink s r = some conn) :
    s.warm = some (conn, r.fingerprint) := by
  unfold takeWarmLink at h
  split at h
  · rename_i warm fingerprint hwarm
    split_ifs at h with hother
    cases h
    rw [hwarm]
    simp only [Bool.or_eq_true, decide_eq_true_eq, not_or, not_not] at hother
    rw [hother.1]
  · cases h

lemma Sound.openSession (h : Sound before l s) (r : Request) :
    Sound before l (openSession s r) := by
  have hdrained : Sound before l { s with warm := none } :=
    ⟨h.file, h.system, h.live, h.aimed, fun p hp => absurd hp (Option.not_mem_none p)⟩
  unfold Dial.openSession
  dsimp only
  cases htaken : takeWarmLink s r with
  | none => exact hdrained.cold r _
  | some conn =>
    obtain ⟨hmem, hintended⟩ := h.warm _ (takeWarmLink_some htaken)
    dsimp only
    split
    · have hsub : s.sessions ⊆ s.sessions ++ [conn] := List.subset_append_left _ _
      refine ⟨fun peer hpeer => (h.file peer hpeer).mono (List.Subset.refl _) hsub,
        fun peer hpeer => (h.system peer hpeer).mono (List.Subset.refl _) hsub,
        fun peer hpeer => (h.live peer hpeer).mono (List.Subset.refl _) hsub, fun c hc => ?_,
        fun p hp => ?_⟩
      · rcases List.mem_append.mp hc with hc | hc
        · exact h.aimed c hc
        · rw [List.mem_singleton.mp hc]
          exact h.aimed conn hmem
      · dsimp only [storeWarmLink] at hp
        split_ifs at hp
        · exact absurd hp (Option.not_mem_none p)
        · exact absurd hp (Option.not_mem_none p)
        · cases hp
          exact ⟨hsub hmem, hintended⟩
    · rename_i chain hhello
      by_cases hended : (r.prewarm && isLinkEndedRejection chain) = true
      · rw [if_pos hended]
        exact hdrained
      · rw [if_neg hended]
        exact hdrained.cold r _

lemma Sound.retire (h : Sound before l s) (loads saves : Bool) (name live : String) :
    Sound before l (retireGhostIdentities s loads saves name live) := by
  unfold retireGhostIdentities
  by_cases hblank : (Text.trim name).isEmpty = true
  · rw [if_pos hblank]
    exact h
  · rw [if_neg hblank]
    dsimp only
    generalize (s.live.filter _).map Peer.fingerprintHex = ghosts
    have hfile : ∀ peer ∈ (if loads then (retireFrom saves s.file s.file ghosts).2 else s.file),
        Known before l s.sessions peer := by
      intro peer hpeer
      split_ifs at hpeer
      · exact ((retireFrom_mem saves s.file s.file ghosts).2 peer hpeer).elim (h.file peer)
          (h.file peer)
      · exact h.file peer hpeer
    generalize (if loads then (retireFrom saves s.file s.file ghosts).2 else s.file) = file at hfile
    obtain ⟨hlive, hboth⟩ := retireFrom_mem saves s.live file ghosts
    exact ⟨fun peer hpeer => (hboth peer hpeer).elim (h.live peer) (hfile peer), h.system,
      fun peer hpeer => h.live peer (hlive peer hpeer), h.aimed, h.warm⟩

/-- What one step keeps. -/
lemma Sound.step (h : Sound before l s) (op : Op) : Sound before (l ++ [op]) (step s op).1 := by
  have hop : op ∈ l ++ [op] := List.mem_append_right _ List.mem_cons_self
  replace h := h.mono (List.subset_append_left l [op])
  cases op with
  | call book call saves =>
    cases book with
    | file =>
      refine ⟨fun peer hpeer => ?_, h.system, h.live, h.aimed, h.warm⟩
      dsimp only [Dial.step] at hpeer
      split_ifs at hpeer
      · exact known_done h.file hop hpeer
      · exact h.file peer hpeer
    | system =>
      refine ⟨h.file, fun peer hpeer => ?_, h.live, h.aimed, h.warm⟩
      dsimp only [Dial.step] at hpeer
      split_ifs at hpeer
      · exact known_done h.system hop hpeer
      · exact h.system peer hpeer
    | live =>
      dsimp only [Dial.step]
      have hlive : ∀ peer ∈ call.done s.live, Known before (l ++ [.call .live call saves])
          s.sessions peer := fun peer hpeer => known_done h.live hop hpeer
      refine ⟨fun peer hpeer => ?_, h.system, hlive, h.aimed, h.warm⟩
      dsimp only at hpeer
      split_ifs at hpeer
      · exact hlive peer hpeer
      · exact h.file peer hpeer
  | reload =>
    dsimp only [Dial.step]
    exact ⟨h.file, h.system, h.file, h.aimed, h.warm⟩
  | dial d =>
    obtain ⟨hfailed, hreached⟩ := h.reached (dialed_session s d)
    unfold Dial.step
    dsimp only
    generalize dialSession s d = result at hfailed hreached
    obtain ⟨_ | conn, file⟩ := result
    · have hfile : file = s.file := hfailed _ rfl
      rw [hfile]
      exact h
    · exact (hreached conn rfl).2
  | episode r =>
    dsimp only [Dial.step]
    exact h.openSession r
  | retire loads saves name live =>
    dsimp only [Dial.step]
    exact h.retire loads saves name live

lemma updatePeer_finds {update : Peer → Peer}
    (h : fingerprint ∈ peers.map Peer.fingerprintHex) :
    ∃ old ∈ peers, old.fingerprintHex = fingerprint ∧
      update old ∈ updatePeer fingerprint update peers := by
  induction peers with
  | nil => cases h
  | cons first peers ih =>
    rw [updatePeer]
    by_cases hfirst : first.fingerprintHex = fingerprint
    · rw [if_pos hfirst]
      exact ⟨first, List.mem_cons_self, hfirst, List.mem_cons_self⟩
    · rw [if_neg hfirst]
      rw [List.map_cons, List.mem_cons] at h
      obtain ⟨old, hold, hfp, hmem⟩ := ih (h.resolve_left (Ne.symm hfirst))
      exact ⟨old, List.mem_cons_of_mem _ hold, hfp, List.mem_cons_of_mem _ hmem⟩

/-- The file after a dial that gets through. -/
lemma dialSession_ok {d : Attempt} (h : (dialSession s d).1 = .ok conn) :
    (dialSession s d).2 = notePeerAddress d.fileLoads d.saves s.file conn.presented d.address := by
  unfold dialSession at h ⊢
  split at h
  · cases h
    rfl
  · split_ifs at h with hknown
    rw [if_neg hknown]
    split at h
    · cases h
    · split at h
      · cases h
        rfl
      · cases h

/-- A noted address is in the file, for a peer that is pinned there from now on. -/
lemma note_heals {f : Presented} (hgo : (noteCall peers f.val address).refused peers = false) :
    ∃ peer ∈ notePeerAddress true true peers f address, peer.fingerprintHex = f.val ∧
      peer.address.map Text.trim = some (Text.trim address) := by
  unfold notePeerAddress
  rw [if_pos (Bool.and_self true)]
  split_ifs with hsame
  · obtain ⟨peer, hfind, haddress⟩ := Option.bind_eq_some_iff.mp hsame
    have hfp := List.find?_some hfind
    exact ⟨peer, List.mem_of_find?_eq_some hfind, by simpa using hfp, by rw [haddress]; rfl⟩
  · have hdone : (noteCall peers f.val address).done peers =
        (noteCall peers f.val address).next peers := by
      unfold BookCall.done
      rw [hgo]
      rfl
    rw [hdone]
    unfold noteCall BookCall.next BookCall.next.nextPin
    dsimp only
    rw [f.lower]
    split_ifs with hpinned
    · rw [isPinned_hexdigits f.property] at hpinned
      obtain ⟨old, -, hfp, hmem⟩ := updatePeer_finds hpinned
      refine ⟨_, hmem, hfp, ?_⟩
      exact congrArg some (Text.trim_trim address)
    · refine ⟨_, List.mem_append_right _ List.mem_cons_self, rfl, ?_⟩
      exact congrArg some (Text.trim_trim address)

end

/-- **Dialing adds no trust.** In every run of dials, episodes, retired ghosts and calls on the
books, whoever is pinned or was connected to was pinned before or by a call, and every address
in a book is one of those its peer was given or answered at. A connection is with the peer that
was meant, unless the book has the address under another peer; the warm link is one that was
dialed for the same peer. And a connection that is dialed pins its peer in the file again, with
the address, even if it was unpinned there meanwhile. -/
theorem dialing_adds_no_trust (file system live : List Peer) (l : List Op) :
    let t := after file system live l
    let before := file ++ system ++ live
    (∀ peer, peer ∈ t.file ∨ peer ∈ t.system ∨ peer ∈ t.live → Known before l t.sessions peer) ∧
      (∀ conn ∈ t.sessions, conn.Aimed ∧ Rooted before l conn.presented.val) ∧
      (∀ r conn, takeWarmLink t r = some conn →
        conn ∈ t.sessions ∧ conn.intended = some r.fingerprint) ∧
      ∀ d conn, (dialSession t d).1 = .ok conn → d.fileLoads = true → d.saves = true →
        (noteCall t.file conn.presented.val d.address).refused t.file = false →
        ∃ peer ∈ (step t (.dial d)).1.file, peer.fingerprintHex = conn.presented.val ∧
          peer.address.map Text.trim = some (Text.trim d.address) := by
  intro t before
  have h : Sound before l t := by
    refine Trace.always ?_ fun m op h => h.step op
    have hstart : ∀ peer ∈ before, Known before [] [] peer := fun peer hpeer =>
      ⟨Or.inl ⟨peer, hpeer, rfl⟩, fun address haddress => Or.inl ⟨peer, hpeer, rfl, haddress⟩⟩
    refine ⟨fun peer hpeer => hstart peer ?_, fun peer hpeer => hstart peer ?_,
      fun peer hpeer => hstart peer ?_, fun conn hconn => absurd hconn List.not_mem_nil,
      fun p hp => absurd hp (Option.not_mem_none p)⟩
    · exact List.mem_append_left _ (List.mem_append_left _ hpeer)
    · exact List.mem_append_left _ (List.mem_append_right _ hpeer)
    · exact List.mem_append_right _ hpeer
  refine ⟨?_, h.aimed, fun r conn htaken => h.warm _ (takeWarmLink_some htaken),
    fun d conn hdial hloads hsaves hgo => ?_⟩
  · rintro peer (hpeer | hpeer | hpeer)
    · exact h.file peer hpeer
    · exact h.system peer hpeer
    · exact h.live peer hpeer
  · have hnoted := dialSession_ok hdial
    rw [hloads, hsaves] at hnoted
    have hfile : (step t (.dial d)).1.file = (dialSession t d).2 := by
      unfold step
      dsimp only
      generalize dialSession t d = result at hdial
      obtain ⟨_ | _, _⟩ := result <;> rfl
    rw [hfile, hnoted]
    exact note_heals hgo

end TheKvm.Dial

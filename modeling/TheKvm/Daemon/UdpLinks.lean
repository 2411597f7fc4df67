import TheKvm.Daemon.UdpListener

/-!
UDP motion between machines, over a network that anyone writes to.

A machine drives others and is driven by others. Both directions of a link have one key.
-/

namespace TheKvm

/-- A motion that the driver at `sender` sends to `receiver`. -/
structure UdpPost where
  sender : Fingerprint
  receiver : Fingerprint
  linkId : UInt64
  sequence : UInt64
  dx : Int32
  dy : Int32
  nonce : Nonce

variable {Key : Type} [DecidableEq Key]

namespace UdpPost

/-- Of `arm_udp_motion_sender`. -/
def key (sha256 : List UInt8 → Key) (post : UdpPost) : Key :=
  deriveUdpKey sha256 post.sender.hex post.receiver.hex post.linkId

/-- Of `send_motion_udp`. -/
def datagram (aead : Aead Key) (sha256 : List UInt8 → Key) (post : UdpPost) :
    IoResult (List UInt8) :=
  encodeMotionPacket aead post.nonce.val (post.key sha256) post.sequence post.dx post.dy

end UdpPost

/-- An inbound episode with UDP motion. -/
structure UdpEpisode where
  host : Fingerprint
  peer : Fingerprint
  linkId : UInt64

inductive UdpLinkEvent
  /-- the host accepts an episode -/
  | accept (episode : UdpEpisode) (id : ℕ) (lockScreenEnabled : Bool) (now : ℕ)
  /-- an episode ends -/
  | finish (episode : UdpEpisode) (id : ℕ)
  | send (post : UdpPost)
  /-- some bytes reach the UDP port of a host -/
  | receive (host : Fingerprint) (datagram : List UInt8) (first : ℕ)

/-- What a daemon keeps of UDP motion. -/
structure UdpHost (Key : Type) where
  ring : List (UdpMotionKey Key)
  lastSeq : LastSeq Key
  /-- The episode that takes the motion of a peer. -/
  sinks : String → Option ℕ

structure UdpLinks (Key : Type) where
  hosts : Fingerprint → UdpHost Key
  accepted : List UdpEpisode
  sent : List UdpPost

namespace UdpLinks

def init : UdpLinks Key := ⟨fun _ => ⟨[], ∅, fun _ => none⟩, [], []⟩

/-- What the listener of a host does with a datagram. -/
def listen (aead : Aead Key) (s : UdpLinks Key) (host : Fingerprint) (datagram : List UInt8)
    (first : ℕ) : LastSeq Key × Option (Key × String × UdpMotionFrame) :=
  listenDatagram aead (udpMotionKeySnapshot (s.hosts host).ring) (s.hosts host).lastSeq datagram
    first

/-- `forward_udp_motion`: the motion that enters an episode of the host, and whose it is. -/
def forward (aead : Aead Key) (s : UdpLinks Key) (host : Fingerprint) (datagram : List UInt8)
    (first : ℕ) : Option (String × UdpMotionFrame) :=
  match (s.listen aead host datagram first).2 with
  | some (_, fingerprintHex, frame) =>
    ((s.hosts host).sinks fingerprintHex).map fun _ => (fingerprintHex, frame)
  | none => none

def step (aead : Aead Key) (sha256 : List UInt8 → Key) (s : UdpLinks Key) :
    UdpLinkEvent → UdpLinks Key × Unit
  | .accept episode id lockScreenEnabled now =>
    let host := s.hosts episode.host
    let (ring, _) := registerUdpMotionKey sha256 host.ring episode.host.hex episode.peer.hex
      episode.linkId lockScreenEnabled now
    let sinks := Function.update host.sinks episode.peer.hex (some id)
    ({ s with
        hosts := Function.update s.hosts episode.host { host with ring, sinks }
        accepted := s.accepted ++ [episode] }, ())
  | .finish episode id =>
    let host := s.hosts episode.host
    -- a successor's sink stays
    let sinks := if host.sinks episode.peer.hex = some id then
      Function.update host.sinks episode.peer.hex none else host.sinks
    ({ s with hosts := Function.update s.hosts episode.host { host with sinks } }, ())
  | .send post => ({ s with sent := s.sent ++ [post] }, ())
  | .receive host datagram first =>
    let lastSeq := (s.listen aead host datagram first).1
    ({ s with hosts := Function.update s.hosts host { s.hosts host with lastSeq } }, ())

/-- After some events. -/
def after (aead : Aead Key) (sha256 : List UInt8 → Key) (events : List UdpLinkEvent) :
    UdpLinks Key :=
  Trace.final (step aead sha256) init events

/-- What enters an episode of a peer is what that peer sent to the host. -/
def FromPeer (aead : Aead Key) (sha256 : List UInt8 → Key) (s : UdpLinks Key) :
    UdpLinkEvent → Prop
  | .receive host datagram first =>
    ∀ peer : Fingerprint, ∀ frame, s.forward aead host datagram first = some (peer.hex, frame) →
      ∃ post ∈ s.sent, post.datagram aead sha256 = .ok datagram ∧
        frame = ⟨post.sequence, post.dx, post.dy⟩ ∧ post.sender = peer ∧ post.receiver = host
  | _ => True

/-- What enters an episode of a peer is what one of the two ends of an accepted link sent to the
other. -/
def FromLink (aead : Aead Key) (sha256 : List UInt8 → Key) (s : UdpLinks Key) :
    UdpLinkEvent → Prop
  | .receive host datagram first =>
    ∀ peer : Fingerprint, ∀ frame, s.forward aead host datagram first = some (peer.hex, frame) →
      ∃ post ∈ s.sent, post.datagram aead sha256 = .ok datagram ∧
        frame = ⟨post.sequence, post.dx, post.dy⟩ ∧ ⟨host, peer, post.linkId⟩ ∈ s.accepted ∧
        (post.sender = peer ∧ post.receiver = host ∨ post.sender = host ∧ post.receiver = peer)
  | _ => True

/-- What is authentic under a key of the host was sent under that key, and links that were
accepted or driven have one key only if they have one key material. -/
def Unbroken (aead : Aead Key) (sha256 : List UInt8 → Key) (s : UdpLinks Key) :
    UdpLinkEvent → Prop
  | .receive host datagram _ =>
    (∀ entry ∈ (s.hosts host).ring, ∀ plaintext,
      aead.decrypt entry.key (Bytes.slice datagram 8 headerLen) (datagram.drop headerLen) =
        some plaintext →
      ∃ post ∈ s.sent, post.key sha256 = entry.key ∧
        post.datagram aead sha256 = .ok (udpMagic ++ datagram.drop 8)) ∧
      ∀ post ∈ s.sent, ∀ episode ∈ s.accepted,
        post.key sha256 = deriveUdpKey sha256 episode.host.hex episode.peer.hex episode.linkId →
        udpKeyMaterial post.sender.hex post.receiver.hex post.linkId =
          udpKeyMaterial episode.host.hex episode.peer.hex episode.linkId
  | _ => True

variable {aead : Aead Key} {sha256 : List UInt8 → Key} {s : UdpLinks Key}

/-! ### The rings -/

/-- A ring holds keys of accepted episodes. -/
def Accepted (sha256 : List UInt8 → Key) (s : UdpLinks Key) : Prop :=
  ∀ host, ∀ entry ∈ (s.hosts host).ring, ∃ episode ∈ s.accepted, episode.host = host ∧
    entry.fingerprintHex = episode.peer.hex ∧
    entry.key = deriveUdpKey sha256 host.hex episode.peer.hex episode.linkId

lemma mem_pushUdpMotionKey {ring : List (UdpMotionKey Key)} {key : Key} {peerHex : String}
    {lockScreenEnabled : Bool} {now : ℕ} {entry : UdpMotionKey Key}
    (h : entry ∈ pushUdpMotionKey ring key peerHex lockScreenEnabled now) :
    entry ∈ ring ∨ entry = ⟨key, peerHex, lockScreenEnabled, now⟩ := by
  rw [pushUdpMotionKey, List.mem_append, List.mem_singleton] at h
  refine h.imp_left fun hkept => ?_
  split_ifs at hkept
  · exact (UdpKeys.mem_retain.mp (List.mem_of_mem_tail hkept)).1
  · exact (UdpKeys.mem_retain.mp hkept).1

omit [DecidableEq Key] in
/-- Events that leave the ring of a host alone keep it accepted. -/
lemma Accepted.update (h : s.Accepted sha256) {host : Fingerprint} {lastSeq : LastSeq Key}
    {sinks : String → Option ℕ} :
    Accepted sha256 { s with
      hosts := Function.update s.hosts host ⟨(s.hosts host).ring, lastSeq, sinks⟩ } := by
  intro other entry hentry
  refine h other entry ?_
  by_cases hother : other = host
  · subst hother
    simpa using hentry
  · simpa [hother] using hentry

lemma Accepted.step (h : s.Accepted sha256) (event : UdpLinkEvent) :
    (step aead sha256 s event).1.Accepted sha256 := by
  cases event with
  | accept episode id lockScreenEnabled now =>
    intro host entry hentry
    simp only [UdpLinks.step, registerUdpMotionKey] at hentry ⊢
    have hold : entry ∈ (s.hosts host).ring →
        ∃ e ∈ s.accepted ++ [episode], e.host = host ∧ entry.fingerprintHex = e.peer.hex ∧
          entry.key = deriveUdpKey sha256 host.hex e.peer.hex e.linkId := by
      intro hmem
      obtain ⟨e, he, hrest⟩ := h host entry hmem
      exact ⟨e, List.mem_append_left _ he, hrest⟩
    by_cases hhost : host = episode.host
    · subst hhost
      rw [Function.update_self] at hentry
      rcases mem_pushUdpMotionKey hentry with hmem | rfl
      · exact hold hmem
      · exact ⟨episode, List.mem_append_right _ List.mem_cons_self, rfl, rfl, rfl⟩
    · rw [Function.update_of_ne hhost] at hentry
      exact hold hentry
  | finish episode id => exact h.update
  | send post => exact h
  | receive host datagram first => exact h.update

/-! ### What is forwarded -/

/-- What is forwarded is read under the key of the entry it is forwarded by. -/
lemma forward_some {host : Fingerprint} {datagram : List UInt8} {first : ℕ} {peerHex : String}
    {frame : UdpMotionFrame} (h : s.forward aead host datagram first = some (peerHex, frame)) :
    ∃ entry ∈ (s.hosts host).ring, entry.fingerprintHex = peerHex ∧
      decodeMotionPacket aead [entry.key] datagram =
        .ok (0, frame.sequence, frame.dx, frame.dy) := by
  rw [forward, listen, listenDatagram] at h
  split_ifs at h with hempty
  rcases hdecode : decodeMotionPacket aead
      ((udpMotionKeySnapshot (s.hosts host).ring).map Prod.fst) datagram
    with error | ⟨index, seq, dx, dy⟩
  · rw [hdecode] at h
    cases h
  obtain ⟨key, hkey, hsingle⟩ := decodeMotionPacket_single hdecode
  rw [hdecode] at h
  rw [UdpMotion.keys_udpMotionKeySnapshot, List.getElem?_map] at hkey
  obtain ⟨entry, hentry, rfl⟩ := Option.map_eq_some_iff.mp hkey
  have hget : (udpMotionKeySnapshot (s.hosts host).ring)[index]? =
      some (entry.key, entry.fingerprintHex, entry.lockScreenEnabled) := by
    rw [udpMotionKeySnapshot, List.getElem?_map, hentry]
    rfl
  simp only [hget] at h
  by_cases haccept : acceptSequence ((s.hosts host).lastSeq.lookup entry.key) seq = true
  · rw [if_pos haccept] at h
    simp only [Option.map_eq_some_iff, Prod.mk.injEq] at h
    obtain ⟨_, _, rfl, rfl⟩ := h
    exact ⟨entry, List.mem_of_getElem? hentry, rfl, hsingle⟩
  · rw [if_neg haccept] at h
    cases h

/-- What reads as motion under a key it was sent under is the motion that was sent. -/
lemma frame_eq (hlawful : aead.Lawful) {post : UdpPost} {datagram : List UInt8}
    {seq : UInt64} {dx dy : Int32} (hpost : post.datagram aead sha256 = .ok datagram)
    (h : decodeMotionPacket aead [post.key sha256] datagram = .ok (0, seq, dx, dy)) :
    seq = post.sequence ∧ dx = post.dx ∧ dy = post.dy := by
  rw [decodeMotionPacket_own hlawful post.nonce.property hpost] at h
  obtain ⟨-, rfl, rfl, rfl⟩ : True ∧ post.sequence = seq ∧ post.dx = dx ∧ post.dy = dy := by
    simpa using h
  exact ⟨rfl, rfl, rfl⟩

lemma Accepted.fromLink (hlawful : aead.Lawful) (haccepted : s.Accepted sha256)
    {event : UdpLinkEvent} (hunbroken : s.Unbroken aead sha256 event) :
    s.FromLink aead sha256 event := by
  cases event with
  | receive host datagram first =>
    obtain ⟨hauthentic, hmaterial⟩ := hunbroken
    intro peer frame hforward
    obtain ⟨entry, hentry, hhex, hdecode⟩ := forward_some hforward
    obtain ⟨hmagic, plaintext, hdecrypt⟩ := decodeMotionPacket_authentic hdecode
    obtain ⟨post, hpost, hkey, hdatagram⟩ := hauthentic entry hentry plaintext hdecrypt
    rw [← hmagic, List.take_append_drop] at hdatagram
    rw [← hkey] at hdecode
    obtain ⟨hseq, hdx, hdy⟩ := frame_eq hlawful hdatagram hdecode
    obtain ⟨episode, hepisode, rfl, hepisodeHex, hentryKey⟩ := haccepted host entry hentry
    obtain rfl : episode.peer = peer := Fingerprint.hex_injective (hepisodeHex.symm.trans hhex)
    -- the key of the entry is the key of the post, so their links are one
    obtain ⟨hlink, hends⟩ := Fingerprint.udpKeyMaterial_inj
      (hmaterial post hpost episode hepisode (hkey.trans hentryKey))
    refine ⟨post, hpost, hdatagram, ?_, ?_, ?_⟩
    · rw [← hseq, ← hdx, ← hdy]
    · rw [hlink]
      exact hepisode
    · exact hends.symm
  | _ => trivial

/-- **Motion is bound to its link.** Whatever reaches the UDP ports, if the cipher and the hash
are unbroken all motion that enters an episode of a peer was sent by one end of an accepted link
between the host and the peer to the other end. -/
theorem alwaysFromLink (hlawful : aead.Lawful) (events : List UdpLinkEvent)
    (h : Trace.Each (fun past => (after aead sha256 past).Unbroken aead sha256) events) :
    Trace.Each (fun past => (after aead sha256 past).FromLink aead sha256) events := by
  intro past event hevent
  have haccepted : (after aead sha256 past).Accepted sha256 :=
    Trace.always (I := fun _ (s : UdpLinks Key) => s.Accepted sha256)
      (fun _ _ hentry => absurd hentry List.not_mem_nil) fun _ event h => h.step event
  exact haccepted.fromLink hlawful (h past event hevent)

/-! ### Two machines that drive each other -/

def alice : Fingerprint where
  hex := String.ofList (List.replicate 64 'a')
  length := by rw [String.toList_ofList, List.length_replicate]
  digits := by
    intro c hc
    rw [String.toList_ofList] at hc
    rw [List.eq_of_mem_replicate hc]
    rfl

def bob : Fingerprint where
  hex := String.ofList (List.replicate 64 'b')
  length := by rw [String.toList_ofList, List.length_replicate]
  digits := by
    intro c hc
    rw [String.toList_ofList] at hc
    rw [List.eq_of_mem_replicate hc]
    rfl

/-- It tells the one link from none. -/
def checksum (material : List UInt8) : UInt8 := material.foldl (· + ·) 0

def motionTo (sender receiver : Fingerprint) : UdpPost :=
  ⟨sender, receiver, 7, 1, 3, 0, .fill 0⟩

/-- Each accepts an episode of the other on one link, and one sends. -/
def exchange (sender receiver : Fingerprint) : List UdpLinkEvent :=
  [.accept ⟨alice, bob, 7⟩ 0 true 0, .accept ⟨bob, alice, 7⟩ 0 true 0,
    .send (motionTo sender receiver)]

def packet (sender receiver : Fingerprint) : List UInt8 :=
  match (motionTo sender receiver).datagram Aead.clear checksum with
  | .ok datagram => datagram
  | .error _ => []

/-- What was sent reaches Alice's port. -/
def delivery (sender receiver : Fingerprint) : List UdpLinkEvent :=
  exchange sender receiver ++ [.receive alice (packet sender receiver) 0]

lemma alice_ne_bob : alice ≠ bob :=
  fun heq => absurd (congrArg Fingerprint.hex heq) (by decide +kernel)

lemma hosts_exchange (sender receiver : Fingerprint) :
    (after Aead.clear checksum (exchange sender receiver)).hosts alice =
      ⟨[⟨deriveUdpKey checksum alice.hex bob.hex 7, bob.hex, true, 0⟩], ∅,
        Function.update (fun _ => none) bob.hex (some 0)⟩ := by
  simp [after, exchange, init, step, registerUdpMotionKey, pushUdpMotionKey, retainUdpMotionKeys,
    Function.update_of_ne alice_ne_bob]

variable {sender receiver : Fingerprint}

lemma material_motionTo
    (hends : sender = alice ∧ receiver = bob ∨ sender = bob ∧ receiver = alice) :
    udpKeyMaterial sender.hex receiver.hex 7 = udpKeyMaterial alice.hex bob.hex 7 := by
  rcases hends with ⟨rfl, rfl⟩ | ⟨rfl, rfl⟩
  · rfl
  · exact udpKeyMaterial_comm _ _ _

/-- Nothing is forged where all is sent on one link. -/
lemma unbroken_delivery
    (hends : sender = alice ∧ receiver = bob ∨ sender = bob ∧ receiver = alice) :
    Trace.Each (fun past => (after Aead.clear checksum past).Unbroken Aead.clear checksum)
      (delivery sender receiver) := by
  refine Trace.each_snoc.mpr ⟨Trace.each_snoc (l := [_, _]).mpr ⟨Trace.each_snoc (l := [_]).mpr
    ⟨Trace.each_singleton.mpr trivial, trivial⟩, trivial⟩, ?_⟩
  refine ⟨?_, ?_⟩
  · intro entry hentry plaintext _
    rw [hosts_exchange] at hentry
    obtain rfl := List.mem_singleton.mp hentry
    refine ⟨motionTo sender receiver, List.mem_singleton.mpr rfl,
      congrArg checksum (material_motionTo hends), ?_⟩
    have hmagic : (packet sender receiver).take 8 = udpMagic := rfl
    rw [← hmagic, List.take_append_drop]
    rfl
  · intro post hpost episode hepisode _
    obtain rfl := List.mem_singleton.mp hpost
    rcases List.mem_cons.mp hepisode with rfl | hepisode
    · exact material_motionTo hends
    · obtain rfl := List.mem_singleton.mp hepisode
      exact (material_motionTo hends).trans (udpKeyMaterial_comm _ _ _)

lemma forward_delivery
    (hends : sender = alice ∧ receiver = bob ∨ sender = bob ∧ receiver = alice) :
    (after Aead.clear checksum (exchange sender receiver)).forward Aead.clear alice
      (packet sender receiver) 0 = some (bob.hex, ⟨1, 3, 0⟩) := by
  have hkey : (motionTo sender receiver).key checksum = deriveUdpKey checksum alice.hex bob.hex 7 :=
    congrArg checksum (material_motionTo hends)
  have hdatagram : (motionTo sender receiver).datagram Aead.clear checksum =
      .ok (packet sender receiver) := rfl
  have hdecode := decodeMotionPacket_own Aead.clear_lawful
    (motionTo sender receiver).nonce.property hdatagram
  rw [hkey] at hdecode
  rw [forward, listen, hosts_exchange, listenDatagram]
  simp [udpMotionKeySnapshot, hdecode, acceptSequence, motionTo]

theorem alwaysFromLink_delivery :
    Trace.Each (fun past => (after Aead.clear checksum past).FromLink Aead.clear checksum)
        (delivery bob alice) ∧
      (after Aead.clear checksum (exchange bob alice)).forward Aead.clear alice
        (packet bob alice) 0 = some (bob.hex, ⟨1, 3, 0⟩) :=
  ⟨alwaysFromLink Aead.clear_lawful _ (unbroken_delivery (Or.inr ⟨rfl, rfl⟩)),
    forward_delivery (Or.inr ⟨rfl, rfl⟩)⟩

/-- What Alice sent to Bob, sent back to her, enters Bob's episode. -/
theorem reflected_motion_enters :
    ¬∀ (Key : Type) [DecidableEq Key] (aead : Aead Key) (sha256 : List UInt8 → Key),
      aead.Lawful → aead.KeyBound → ∀ events : List UdpLinkEvent,
        Trace.Each (fun past => (after aead sha256 past).Unbroken aead sha256) events →
        Trace.Each (fun past => (after aead sha256 past).FromPeer aead sha256) events := by
  intro h
  have hpeer := h UInt8 Aead.clear checksum Aead.clear_lawful Aead.clear_keyBound
    (delivery alice bob) (unbroken_delivery (Or.inl ⟨rfl, rfl⟩)) (exchange alice bob)
    (.receive alice (packet alice bob) 0) (by rfl)
  obtain ⟨post, hpost, -, -, hsender, -⟩ := hpeer bob ⟨1, 3, 0⟩
    (forward_delivery (Or.inl ⟨rfl, rfl⟩))
  obtain rfl := List.mem_singleton.mp hpost
  exact alice_ne_bob hsender

end UdpLinks

end TheKvm

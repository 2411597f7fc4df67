import TheKvm.Protocol.PeerBook
import TheKvm.Ui.Arrangement

/-!
Revoked peers, and what pins them again.

The daemon has a book of peers, and the user another, in a file. A pairing and a placement pin a
peer in both, but so do passes of the UI, links that it sees and addresses that it adopts. The
user's book is loaded, changed and written back by several threads.
-/

namespace TheKvm

open Control

/-! ### The books -/

def fingerprints (peers : List Peer) : List String := peers.map Peer.fingerprintHex

/-- A call on a book that is in memory, where files do not fail. -/
def BookCall.done (call : BookCall) (peers : List Peer) : List Peer :=
  if call.refused peers then peers else call.next peers

/-- A call on a book that was loaded changes the file, or leaves it. -/
def BookCall.changes (call : BookCall) (loaded : List Peer) : Bool :=
  !call.refused loaded && decide (call.next loaded ≠ loaded)

def BookCall.write (call : BookCall) (loaded file : List Peer) : List Peer :=
  if call.changes loaded then call.next loaded else file

/-- A name for the user's book. -/
def pinLabel (peer : Peer) : String :=
  if (Text.trim peer.name).isEmpty then peer.address.getD peer.fingerprintHex else peer.name

/-- `ensure_user_pin`. -/
def userPin (peer : Peer) : BookCall :=
  .pinWithAddress (pinLabel peer) peer.fingerprintHex peer.address

/-- A name for the daemon's book. -/
def nodeName (peer : Peer) : String :=
  if (Text.trim peer.name).isEmpty then
    "peer-" ++ String.ofList ((Text.toAsciiLowercase peer.fingerprintHex).toList.take 8)
  else peer.name

def daemonPin (peer : Peer) : BookCall :=
  .pinWithAddress (nodeName peer) (Text.toAsciiLowercase peer.fingerprintHex) peer.address

/-- `PinPeer`. -/
def pinDaemonPeer (daemon : List Peer) (peer : Peer) : List Peer :=
  if isFingerprint peer.fingerprintHex then (daemonPin peer).done daemon else daemon

/-- The host of an address, by which a book is searched. -/
def bookHost (address : String) : String := String.ofList (address.toList.takeWhile (· ≠ ':'))

/-- The peer at an address, or else at its host. -/
def peerAt (book : List Peer) (address : String) : Option Peer :=
  (book.find? fun peer => peer.address = some address).or
    (book.find? fun peer => peer.address.any fun stored => bookHost stored = bookHost address)

/-! ### Writers -/

/-- A thread at work on the books. -/
inductive BookWriter
  /-- It is to load the user's book or has loaded it, and to make a call on it. Then the daemon may
  be asked to pin a peer; `strict` if not after a call that is refused. -/
  | user (call : BookCall) (loaded : Option (List Peer)) (mirror : Option Peer) (strict : Bool)
  | daemon (peer : Peer)

/-- Both books are to pin the peer. -/
def BookWriter.both (peer : Peer) : BookWriter := .user (userPin peer) none (some peer) false

/-- What is left to do after the user's book. -/
def BookWriter.left (call : BookCall) (loaded : List Peer) (mirror : Option Peer)
    (strict : Bool) : List BookWriter :=
  if strict && call.refused loaded then [] else (mirror.map BookWriter.daemon).toList

/-- The books, and the fingerprints that were revoked and not paired or placed since. -/
structure TrustBooks where
  arranging : Arranging
  daemon : List Peer
  user : List Peer
  writers : List BookWriter
  revoked : List String

namespace TrustBooks

inductive Op
  /-- The user revokes the fingerprint that was typed. -/
  | revoke (fingerprint : String)
  /-- A pairing is accepted, on the machine that dialed and on the station. -/
  | paired (peer : Peer)
  | stationPaired (nodeName fingerprintHex : String)
  | place (fingerprint : String) (side : Edge) (listed : Bool) (a : Answered)
  /-- The settings are changed by others, the arrangement among them. -/
  | configure (config : Config)
  /-- A poll sees a new link in the status it fetched, live or recent. -/
  | followLink (nodeName fingerprintHex : String) (a : Answered)
  | ensureLink (now : ℕ) (listed : Bool) (a : Answered)
  /-- A link is up at an address; the UI adopts it, or a child that dialed it. -/
  | adoptAddress (address : String)
  | noteAddress (fingerprintHex address : String)
  /-- A peer answered at an address that discovery found. -/
  | persistHealed (name fingerprintHex address : String)
  /-- A writer's turn. -/
  | load (writer : ℕ)
  | write (writer : ℕ)
  | mirror (writer : ℕ)

variable (windows : Bool) (myFingerprint : String)

/-- Books that `ListPeers` and the file show, the daemon's first. -/
def linkedPeers (s : TrustBooks) (listed : Bool) : List Peer :=
  (if listed then s.daemon else []) ++ s.user

def forgive (s : TrustBooks) (fingerprintHex : String) : TrustBooks :=
  { s with revoked := s.revoked.filter (· ≠ Text.toAsciiLowercase fingerprintHex) }

def begin (s : TrustBooks) (writer : BookWriter) : TrustBooks :=
  { s with writers := s.writers ++ [writer] }

/-- A writer is replaced by what is left of it. -/
def turn (s : TrustBooks) (writer : ℕ) (left : List BookWriter) : TrustBooks :=
  { s with writers := s.writers.take writer ++ left ++ s.writers.drop (writer + 1) }

/-- The arrangement of a pass; the pins of the peer follow the first one. -/
def arrange (s : TrustBooks) (a : Answered) (pass : Pass) (peer : Peer) : TrustBooks :=
  let arranging := s.arranging.pass windows myFingerprint a pass
  match s.arranging.plan myFingerprint a pass with
  | none => { s with arranging }
  | some layout =>
    if s.arranging.config.layout.screens.isEmpty &&
        (writeArrangement windows a s.arranging.config layout).2 then
      { s with arranging }.begin (.both peer)
    else { s with arranging }

/-- `Unpair`, and what the UI does with its answer. -/
def revoke (s : TrustBooks) (fingerprint : String) : TrustBooks :=
  let fingerprintHex := Text.toAsciiLowercase fingerprint
  if isFingerprint fingerprint then
    if fingerprintHex ∈ fingerprints s.daemon then
      { s with daemon := (BookCall.unpin fingerprintHex).done s.daemon }.begin
        (.user (.unpin fingerprint) none none false)
    -- the daemon did not know the peer, and its answer is an error
    else { s with revoked := fingerprintHex :: s.revoked }
  else s

def step (s : TrustBooks) : Op → TrustBooks × Unit
  | .revoke fingerprint => (s.revoke fingerprint, ())
  | .paired peer =>
    let label := if (Text.trim peer.name).isEmpty then peer.address.getD "" else peer.name
    ((s.forgive peer.fingerprintHex).begin
      (.user (.pinWithAddress label peer.fingerprintHex peer.address) none (some peer) true), ())
  | .stationPaired nodeName fingerprintHex =>
    ({ s.forgive fingerprintHex with
      daemon := (BookCall.pin nodeName fingerprintHex).done s.daemon }, ())
  | .place fingerprint side listed a =>
    match (s.linkedPeers listed).find? (·.fingerprintHex = fingerprint) with
    | none => (s, ())
    | some peer =>
      match if a.config then arrangePlacePeer s.arranging.config peer.name fingerprint side
        else none with
      | none => (s, ())
      | some layout =>
        let written := writeArrangement windows a s.arranging.config layout
        let s := { s with arranging := { s.arranging with config := written.1 } }
        (if written.2 then (s.forgive fingerprint).begin (.both peer) else s, ())
  | .configure config => ({ s with arranging := { s.arranging with config } }, ())
  | .followLink nodeName fingerprintHex a =>
    let fingerprint := Text.toAsciiLowercase fingerprintHex
    (s.arrange windows myFingerprint a (.ensureStation nodeName fingerprintHex)
      ⟨nodeName, fingerprint, none⟩, ())
  | .ensureLink now listed a =>
    let peer := (s.linkedPeers listed).head?
    (s.arrange windows myFingerprint a (.ensureLink now peer) (peer.getD ⟨"", "", none⟩), ())
  | .adoptAddress address =>
    match peerAt s.user address with
    | none => (s, ())
    | some peer =>
      if peer.address = some address then (s, ())
      else
        (s.begin (.user (.pinWithAddress peer.name peer.fingerprintHex (some address)) none none
          false), ())
  | .noteAddress fingerprintHex address =>
    let known := s.user.find? (·.fingerprintHex = fingerprintHex)
    if known.bind Peer.address = some address then (s, ())
    else
      let name := (known.map Peer.name).getD fingerprintHex
      (s.begin (.user (.pinWithAddress name fingerprintHex (some address)) (some s.user) none
        false), ())
  | .persistHealed name fingerprintHex address =>
    let peer : Peer := ⟨name, fingerprintHex, some address⟩
    (s.begin (.user (.pinWithAddress name fingerprintHex (some address)) none (some peer)
      false), ())
  | .load writer =>
    match s.writers[writer]? with
    | some (.user call none mirror strict) =>
      (s.turn writer [.user call (some s.user) mirror strict], ())
    | _ => (s, ())
  | .write writer =>
    match s.writers[writer]? with
    | some (.user call (some loaded) mirror strict) =>
      let s := { s with user := call.write loaded s.user }
      let s := match call with
        | .unpin fingerprint =>
          { s with revoked := Text.toAsciiLowercase fingerprint :: s.revoked }
        | _ => s
      (s.turn writer (BookWriter.left call loaded mirror strict), ())
    | _ => (s, ())
  | .mirror writer =>
    match s.writers[writer]? with
    | some (.daemon peer) =>
      ({ s with daemon := pinDaemonPeer s.daemon peer }.turn writer [], ())
    | _ => (s, ())

def start (arranging : Arranging) (daemon user : List Peer) : TrustBooks :=
  ⟨arranging, daemon, user, [], []⟩

def after (arranging : Arranging) (daemon user : List Peer) (ops : List Op) : TrustBooks :=
  Trace.final (step windows myFingerprint) (start arranging daemon user) ops

/-- What is revoked is in neither book. -/
def Revoked (s : TrustBooks) : Prop :=
  ∀ f ∈ s.revoked, f ∉ fingerprints s.daemon ∧ f ∉ fingerprints s.user

def StaysRevoked (s : TrustBooks) (op : Op) : Prop := (s.step windows myFingerprint op).1.Revoked

/-! ### What revoking asks of the writers -/

/-- A write to the user's book: an unpin finds the fingerprint gone from the daemon's book, and from
the user's if it is not in what was loaded, and nothing else that is revoked was loaded; a pin that
changes the book is not of a fingerprint that is revoked, and none was loaded. -/
def HeedsCall (s : TrustBooks) (loaded : List Peer) : BookCall → Prop
  | .unpin fingerprint =>
    Text.toAsciiLowercase fingerprint ∉ fingerprints s.daemon ∧
      if Text.toAsciiLowercase fingerprint ∈ fingerprints loaded then
        ∀ f ∈ s.revoked, f ≠ Text.toAsciiLowercase fingerprint → f ∉ fingerprints loaded
      else Text.toAsciiLowercase fingerprint ∉ fingerprints s.user
  | .pinWithAddress name fingerprintHex address =>
    (BookCall.pinWithAddress name fingerprintHex address).changes loaded = true →
      Text.toAsciiLowercase fingerprintHex ∉ s.revoked ∧
        ∀ f ∈ s.revoked, f ∉ fingerprints loaded
  | .pin name fingerprintHex =>
    (BookCall.pin name fingerprintHex).changes loaded = true →
      Text.toAsciiLowercase fingerprintHex ∉ s.revoked ∧
        ∀ f ∈ s.revoked, f ∉ fingerprints loaded
  | .loadOrCreate => True

/-- A revocation finds the fingerprint in the daemon's book, or in neither; writers heed what is
revoked. -/
def Heeds (s : TrustBooks) : Op → Prop
  | .revoke fingerprint => isFingerprint fingerprint = true →
    Text.toAsciiLowercase fingerprint ∉ fingerprints s.daemon →
    Text.toAsciiLowercase fingerprint ∉ fingerprints s.user
  | .write writer => ∀ call loaded mirror strict,
    s.writers[writer]? = some (.user call (some loaded) mirror strict) → s.HeedsCall loaded call
  | .mirror writer => ∀ peer, s.writers[writer]? = some (.daemon peer) →
    isFingerprint peer.fingerprintHex = true → (daemonPin peer).refused s.daemon = false →
    Text.toAsciiLowercase peer.fingerprintHex ∉ s.revoked
  | _ => True

end TrustBooks

/-! ### What calls do to a book -/

section

variable {peers loaded file : List Peer} {name fingerprintHex : String} {address : Option String}
  {f : String}

/-- A pin that goes ahead adds its fingerprint, or finds it. -/
lemma mem_nextPin (hgo : BookCall.refused.refusedPin peers name fingerprintHex address = false) :
    f ∈ fingerprints (BookCall.next.nextPin peers name fingerprintHex address) ↔
      f ∈ fingerprints peers ∨ f = Text.toAsciiLowercase fingerprintHex := by
  have hdigits := (valid_of_accepted (refusedPin_eq_false hgo).1).fingerprint
  simp only [BookCall.next.nextPin, fingerprints]
  split_ifs with hpinned
  · rw [map_updatePeer]
    have hmem := (isPinned_hexdigits hdigits).mp hpinned
    exact ⟨Or.inl, fun h => h.elim id fun h => h ▸ hmem⟩
  · simp

lemma mem_done_pin (h : f ∈ fingerprints ((BookCall.pin name fingerprintHex).done peers)) :
    f ∈ fingerprints peers ∨ f = Text.toAsciiLowercase fingerprintHex := by
  unfold BookCall.done at h
  split_ifs at h with hrefused
  · exact Or.inl h
  · exact (mem_nextPin (Bool.not_eq_true _ ▸ hrefused)).mp h

lemma mem_next_unpin : f ∈ fingerprints ((BookCall.unpin fingerprintHex).next peers) ↔
    f ∈ fingerprints peers ∧ f ≠ Text.toAsciiLowercase fingerprintHex := by
  simp only [BookCall.next, fingerprints, List.mem_map, List.mem_filter, bne_iff_ne]
  constructor
  · rintro ⟨peer, ⟨hmem, hne⟩, rfl⟩
    exact ⟨⟨peer, hmem, rfl⟩, hne⟩
  · rintro ⟨⟨peer, hmem, rfl⟩, hne⟩
    exact ⟨peer, ⟨hmem, hne⟩, rfl⟩

lemma changes_unpin : (BookCall.unpin fingerprintHex).changes peers = true ↔
    Text.toAsciiLowercase fingerprintHex ∈ fingerprints peers := by
  have hsame : (BookCall.unpin fingerprintHex).next peers = peers ↔
      Text.toAsciiLowercase fingerprintHex ∉ fingerprints peers := by
    simp only [BookCall.next, List.filter_eq_self, bne_iff_ne, fingerprints, List.mem_map,
      not_exists, not_and]
  simp [BookCall.changes, BookCall.refused, hsame]

lemma refused_of_changes {call : BookCall} (h : call.changes peers = true) :
    call.refused peers = false := by
  rw [BookCall.changes, Bool.and_eq_true, Bool.not_eq_true'] at h
  exact h.1

end

/-! ### One step -/

namespace TrustBooks

variable {windows : Bool} {myFingerprint : String} {s s' : TrustBooks}

/-- Nothing is revoked or pinned. -/
lemma Revoked.of_same (h : s.Revoked) (hrevoked : s'.revoked ⊆ s.revoked)
    (hdaemon : s'.daemon = s.daemon) (huser : s'.user = s.user) : s'.Revoked := by
  intro f hf
  rw [hdaemon, huser]
  exact h f (hrevoked hf)

lemma revoked_turn_iff (writer : ℕ) (left : List BookWriter) :
    (s.turn writer left).Revoked ↔ s.Revoked :=
  Iff.rfl

lemma forgive_subset (fingerprintHex : String) : (s.forgive fingerprintHex).revoked ⊆ s.revoked :=
  fun _ hf => List.mem_of_mem_filter hf

lemma arrange_same (a : Answered) (pass : Pass) (peer : Peer) :
    let s' := s.arrange windows myFingerprint a pass peer
    s'.revoked = s.revoked ∧ s'.daemon = s.daemon ∧ s'.user = s.user := by
  simp only [arrange]
  split
  · exact ⟨rfl, rfl, rfl⟩
  · split_ifs <;> exact ⟨rfl, rfl, rfl⟩

lemma Revoked.arrange (h : s.Revoked) (a : Answered) (pass : Pass) (peer : Peer) :
    (s.arrange windows myFingerprint a pass peer).Revoked := by
  obtain ⟨hrevoked, hdaemon, huser⟩ :=
    @arrange_same windows myFingerprint s a pass peer
  exact h.of_same (hrevoked ▸ List.Subset.refl _) hdaemon huser

lemma Revoked.stationPaired (h : s.Revoked) (nodeName fingerprintHex : String) :
    Revoked { s.forgive fingerprintHex with
      daemon := (BookCall.pin nodeName fingerprintHex).done s.daemon } := by
  intro f hf
  obtain ⟨hmem, hne⟩ := List.mem_filter.mp hf
  refine ⟨fun hpinned => ?_, (h f hmem).2⟩
  dsimp only at hpinned
  rcases mem_done_pin hpinned with hpinned | hsame
  · exact (h f hmem).1 hpinned
  · exact of_decide_eq_true hne hsame

lemma staysRevoked_revoke_iff (h : s.Revoked) (fingerprint : String) :
    (s.revoke fingerprint).Revoked ↔ s.Heeds (.revoke fingerprint) := by
  simp only [revoke, Heeds]
  split_ifs with hfingerprint hknown
  · refine iff_of_true (fun f hf => ⟨fun hmem => ?_, (h f hf).2⟩) (fun _ hgone => ?_)
    · exact (h f hf).1 (mem_next_unpin.mp hmem).1
    · exact absurd hknown hgone
  · simp only [Revoked, List.forall_mem_cons]
    constructor
    · intro hrevoked _ _
      exact hrevoked.1.2
    · intro hgone
      exact ⟨⟨hknown, hgone hfingerprint hknown⟩, h⟩
  · exact iff_of_true h fun hf => absurd hf hfingerprint

/-- A write of a book to which at most one fingerprint was added. -/
lemma revoked_pinned_iff (h : s.Revoked) {call : BookCall} {loaded : List Peer}
    {fingerprint : String}
    (hnext : call.changes loaded = true → ∀ f, f ∈ fingerprints (call.next loaded) ↔
      f ∈ fingerprints loaded ∨ f = fingerprint) :
    Revoked { s with user := call.write loaded s.user } ↔ (call.changes loaded = true →
      fingerprint ∉ s.revoked ∧ ∀ f ∈ s.revoked, f ∉ fingerprints loaded) := by
  unfold BookCall.write
  split_ifs with hchanges
  · constructor
    · intro hrevoked _
      have hout : ∀ f ∈ s.revoked, f ∉ fingerprints loaded ∧ f ≠ fingerprint := fun f hf =>
        not_or.mp fun hmem => (hrevoked f hf).2 ((hnext hchanges f).mpr hmem)
      exact ⟨fun hmem => (hout _ hmem).2 rfl, fun f hf => (hout f hf).1⟩
    · intro hheeds f hf
      obtain ⟨hpinned, hloaded⟩ := hheeds hchanges
      refine ⟨(h f hf).1, fun hmem => ?_⟩
      rcases (hnext hchanges f).mp hmem with hmem | rfl
      · exact hloaded f hf hmem
      · exact hpinned hf
  · exact iff_of_true h fun hgo => absurd hgo hchanges

lemma revoked_unpinned_iff (h : s.Revoked) (loaded : List Peer) (fingerprint : String) :
    Revoked { s with
      user := (BookCall.unpin fingerprint).write loaded s.user
      revoked := Text.toAsciiLowercase fingerprint :: s.revoked } ↔
      s.HeedsCall loaded (.unpin fingerprint) := by
  simp only [Revoked, List.forall_mem_cons, HeedsCall, BookCall.write, changes_unpin, and_assoc]
  refine and_congr_right fun _ => ?_
  split_ifs with hloaded
  · simp only [mem_next_unpin, ne_eq, not_true_eq_false, and_false, not_false_eq_true, true_and]
    constructor
    · intro hrevoked f hf hne hmem
      exact (hrevoked f hf).2 ⟨hmem, hne⟩
    · intro hheeds f hf
      exact ⟨(h f hf).1, fun hmem => hheeds f hf hmem.2 hmem.1⟩
  · exact and_iff_left h

lemma revoked_write_iff (h : s.Revoked) {writer : ℕ} {call : BookCall} {loaded : List Peer}
    {mirror : Option Peer} {strict : Bool}
    (hwriter : s.writers[writer]? = some (.user call (some loaded) mirror strict)) :
    s.StaysRevoked windows myFingerprint (.write writer) ↔ s.HeedsCall loaded call := by
  rw [StaysRevoked, step, hwriter]
  dsimp only
  rw [revoked_turn_iff]
  cases call with
  | loadOrCreate =>
    have hsame : BookCall.loadOrCreate.write loaded s.user = s.user := by
      simp [BookCall.write, BookCall.changes, BookCall.next]
    rw [hsame]
    exact iff_of_true h trivial
  | pin name fingerprintHex =>
    refine revoked_pinned_iff h fun hgo f => ?_
    exact mem_nextPin (refused_of_changes hgo)
  | pinWithAddress name fingerprintHex address =>
    refine revoked_pinned_iff h fun hgo f => ?_
    exact mem_nextPin (refused_of_changes hgo)
  | unpin fingerprint => exact revoked_unpinned_iff h loaded fingerprint

lemma revoked_mirror_iff (h : s.Revoked) {writer : ℕ} {peer : Peer}
    (hwriter : s.writers[writer]? = some (.daemon peer)) :
    s.StaysRevoked windows myFingerprint (.mirror writer) ↔
      (isFingerprint peer.fingerprintHex = true → (daemonPin peer).refused s.daemon = false →
        Text.toAsciiLowercase peer.fingerprintHex ∉ s.revoked) := by
  rw [StaysRevoked, step, hwriter]
  dsimp only
  rw [revoked_turn_iff, pinDaemonPeer, BookCall.done]
  split_ifs with hfingerprint hrefused
  · refine iff_of_true h fun _ hgo => ?_
    rw [hrefused] at hgo
    cases hgo
  · have hgo : (daemonPin peer).refused s.daemon = false := Bool.not_eq_true _ ▸ hrefused
    have hmem : ∀ f, f ∈ fingerprints ((daemonPin peer).next s.daemon) ↔
        f ∈ fingerprints s.daemon ∨ f = Text.toAsciiLowercase peer.fingerprintHex := by
      intro f
      rw [← Text.toAsciiLowercase_idem peer.fingerprintHex]
      exact mem_nextPin hgo
    constructor
    · intro hrevoked _ _ hf
      exact (hrevoked _ hf).1 ((hmem _).mpr (Or.inr rfl))
    · intro hheeds f hf
      refine ⟨fun hpinned => ?_, (h f hf).2⟩
      rcases (hmem f).mp hpinned with hpinned | rfl
      · exact (h f hf).1 hpinned
      · exact hheeds hfingerprint hgo hf
  · exact iff_of_true h fun hf => absurd hf hfingerprint

lemma staysRevoked_iff (h : s.Revoked) (op : Op) :
    s.StaysRevoked windows myFingerprint op ↔ s.Heeds op := by
  cases op with
  | revoke fingerprint => exact staysRevoked_revoke_iff h fingerprint
  | paired peer => exact iff_of_true (h.of_same (forgive_subset _) rfl rfl) trivial
  | stationPaired nodeName fingerprintHex =>
    exact iff_of_true (h.stationPaired nodeName fingerprintHex) trivial
  | place fingerprint side listed a =>
    refine iff_of_true ?_ trivial
    simp only [StaysRevoked, step]
    split
    · exact h
    · split
      · exact h
      · split_ifs
        · exact h.of_same (forgive_subset _) rfl rfl
        · exact h
  | configure config => exact iff_of_true h trivial
  | followLink nodeName fingerprintHex a => exact iff_of_true (h.arrange a _ _) trivial
  | ensureLink now listed a => exact iff_of_true (h.arrange a _ _) trivial
  | adoptAddress address =>
    refine iff_of_true ?_ trivial
    simp only [StaysRevoked, step]
    split
    · exact h
    · split_ifs <;> exact h
  | noteAddress fingerprintHex address =>
    refine iff_of_true ?_ trivial
    simp only [StaysRevoked, step]
    split_ifs <;> exact h
  | persistHealed name fingerprintHex address => exact iff_of_true h trivial
  | load writer =>
    refine iff_of_true ?_ trivial
    simp only [StaysRevoked, step]
    split <;> exact h
  | write writer =>
    by_cases hwriter : ∃ call loaded mirror strict,
        s.writers[writer]? = some (.user call (some loaded) mirror strict)
    · obtain ⟨call, loaded, mirror, strict, hwriter⟩ := hwriter
      refine (revoked_write_iff h hwriter).trans ⟨?_, fun hheeds => hheeds _ _ _ _ hwriter⟩
      intro hheeds call' loaded' mirror' strict' hwriter'
      cases hwriter.symm.trans hwriter'
      exact hheeds
    · refine iff_of_true ?_ fun call loaded mirror strict hmem =>
        absurd ⟨call, loaded, mirror, strict, hmem⟩ hwriter
      simp only [StaysRevoked, step]
      split
      · exact absurd ⟨_, _, _, _, ‹_›⟩ hwriter
      · exact h
  | mirror writer =>
    by_cases hwriter : ∃ peer, s.writers[writer]? = some (.daemon peer)
    · obtain ⟨peer, hwriter⟩ := hwriter
      refine (revoked_mirror_iff h hwriter).trans ⟨?_, fun hheeds => hheeds _ hwriter⟩
      intro hheeds peer' hwriter'
      cases hwriter.symm.trans hwriter'
      exact hheeds
    · refine iff_of_true ?_ fun peer hmem => absurd ⟨peer, hmem⟩ hwriter
      simp only [StaysRevoked, step]
      split
      · exact absurd ⟨_, ‹_›⟩ hwriter
      · exact h

end TrustBooks

def deskFingerprint : String := String.ofList (List.replicate 64 'a')

def laptopFingerprint : String := String.ofList (List.replicate 64 'b')

def laptopPeer : Peer := ⟨"laptop", laptopFingerprint, none⟩

/-- The laptop had been linked to this machine; it is revoked, and a poll still sees the link. -/
def revokeAndPoll : List TrustBooks.Op :=
  let answered : Answered := ⟨true, true, true, .ok ()⟩
  [.revoke laptopFingerprint, .load 0, .write 0, .followLink "laptop" laptopFingerprint answered,
    .load 0, .write 0, .mirror 0]

end TheKvm

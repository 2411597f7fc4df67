import TheKvm.Daemon.EndedLinks
import TheKvm.Daemon.LinkMemory
import TheKvm.Daemon.Waiters
import TheKvm.Protocol.PeerBook
import TheKvm.Protocol.Wire

/-!
The admission of an inbound episode, from its Hello to Accepted.

Trust, bans and the mode are checked once, the mode on a copy of the configuration, and the
local user may then take minutes to allow the link. What is taken back in the meantime reaches
the episode only where it takes the request off the queue.
-/

namespace TheKvm.Approvals

/-! ### What is taken off the list -/

section

variable {q : Queue (String × UInt64)} {key : String × UInt64} {t : ℕ}

namespace Queue

lemma listed_remove_ne {key' : String × UInt64} (hne : key' ≠ key) :
    (q.remove key').listed key = q.listed key := by
  rcases hlisted : q.listed key' with _ | t'
  · rw [remove_none hlisted]
  · rw [remove_some hlisted]
    unfold listed
    simp only
    rw [List.find?_filter]
    congr 2
    funext e
    by_cases hkey : e.1 = key
    · simp [hkey, hne.symm]
    · simp [hkey]

/-- Taking an entry off the list closes its channel. -/
lemma closed_remove (hsound : q.Sound) (h : q.listed key = some t) : (q.remove key).Closed t := by
  obtain ⟨r, hr, -⟩ := hsound.tidy.entry key t (listed_some h)
  have hregs := registrations_modify (q := q) (t := t) (fun r => { r with channel := .closed }) t
  rw [if_pos rfl, hr, Option.map_some] at hregs
  rw [remove_some h]
  exact ⟨_, hregs, rfl⟩

lemma Sound.foldl_remove (hsound : q.Sound) (keep : String × UInt64 → Bool)
    (keys : List (String × UInt64)) :
    (keys.foldl (fun q key => if keep key then q else q.remove key) q).Sound := by
  induction keys generalizing q with
  | nil => exact hsound
  | cons key keys ih =>
    rw [List.foldl_cons]
    split_ifs
    · exact ih hsound
    · exact ih (hsound.remove key)

lemma Closed.foldl_remove (h : q.Closed t) (keep : String × UInt64 → Bool)
    (keys : List (String × UInt64)) :
    (keys.foldl (fun q key => if keep key then q else q.remove key) q).Closed t := by
  induction keys generalizing q with
  | nil => exact h
  | cons key keys ih =>
    rw [List.foldl_cons]
    split_ifs
    · exact ih h
    · exact ih (h.remove key)

lemma closed_foldl_remove (hsound : q.Sound) (h : q.listed key = some t)
    {keep : String × UInt64 → Bool} (hkeep : keep key = false) {keys : List (String × UInt64)}
    (hkey : key ∈ keys) :
    (keys.foldl (fun q key => if keep key then q else q.remove key) q).Closed t := by
  induction keys generalizing q with
  | nil => cases hkey
  | cons key' keys ih =>
    rw [List.foldl_cons]
    by_cases heq : key' = key
    · subst heq
      rw [if_neg (by rw [hkeep]; exact Bool.false_ne_true)]
      exact (closed_remove hsound h).foldl_remove keep keys
    · have hkey := (List.mem_cons.mp hkey).resolve_left (Ne.symm heq)
      split_ifs
      · exact ih hsound h hkey
      · exact ih (hsound.remove key') ((listed_remove_ne heq).trans h) hkey

/-- What is not kept is told no. -/
lemma closed_retain (hsound : q.Sound) (h : q.listed key = some t) {keep : String × UInt64 → Bool}
    (hkeep : keep key = false) : (q.retain keep).Closed t :=
  closed_foldl_remove hsound h hkeep (List.mem_map.mpr ⟨_, listed_some h, rfl⟩)

end Queue

/-- What a step of the approvals does to their queue. -/
lemma LinkMemory.queue_cases (m : LinkMemory) (op : LinkOp) :
    (m.step op).1.queue = m.queue ∨
      (∃ op', (m.step op).1.queue = (m.queue.step linkApprovals op').1) ∨
      ∃ keep, (m.step op).1.queue = m.queue.retain keep := by
  cases op with
  | register fingerprintHex linkId =>
    unfold LinkMemory.step LinkMemory.register
    cases linkId with
    | none => exact Or.inl rfl
    | some linkId =>
      exact Or.inr (Or.inl ⟨.register (Text.toAsciiLowercase fingerprintHex, linkId), rfl⟩)
  | decide fingerprint linkId approved =>
    refine Or.inr (Or.inl ⟨.decide (Text.toAsciiLowercase fingerprint, linkId) approved, ?_⟩)
    unfold LinkMemory.step LinkMemory.decide
    simp only
    split_ifs <;> rfl
  | isApproved fingerprint linkId => exact Or.inl rfl
  | notePaired fingerprint => exact Or.inl rfl
  | recentlyPaired fingerprint => exact Or.inl rfl
  | revokeEpoch linkId => exact Or.inr (Or.inr ⟨_, rfl⟩)
  | revokePeer fingerprint => exact Or.inr (Or.inr ⟨_, rfl⟩)
  | pass ms => exact Or.inr (Or.inl ⟨.pass ms, rfl⟩)
  | cancel ticket => exact Or.inr (Or.inl ⟨.cancel ticket, rfl⟩)
  | wait ticket => exact Or.inr (Or.inl ⟨.wait ticket, rfl⟩)
  | resolve ticket => exact Or.inr (Or.inl ⟨.resolve ticket, rfl⟩)
  | finish ticket => exact Or.inr (Or.inl ⟨.finish ticket, rfl⟩)
  | drop ticket => exact Or.inr (Or.inl ⟨.drop ticket, rfl⟩)

lemma LinkMemory.sound_step {m : LinkMemory} (h : m.queue.Sound) (op : LinkOp) :
    (m.step op).1.queue.Sound := by
  rcases m.queue_cases op with heq | ⟨op', heq⟩ | ⟨keep, heq⟩ <;> rw [heq]
  · exact h
  · exact h.step op'
  · exact h.foldl_remove keep _

lemma LinkMemory.closed_step {m : LinkMemory} (hsound : m.queue.Sound) (h : m.queue.Closed t)
    (op : LinkOp) : (m.step op).1.queue.Closed t := by
  rcases m.queue_cases op with heq | ⟨op', heq⟩ | ⟨keep, heq⟩ <;> rw [heq]
  · exact h
  · exact h.step hsound op'
  · exact h.foldl_remove keep _

end

end TheKvm.Approvals

namespace TheKvm.Admission

open Approvals

/-! ### The daemon -/

/-- What an episode reads of the configuration. -/
structure LocalConfig where
  mode : Mode
  allowLockScreenControl : Bool
  clipboardEnabled : Bool
  deriving DecidableEq

def modeAllowsIncoming : Mode → Bool
  | .bidirectional | .clientOnly => true
  | .serverClient => false

def modeAllowsOutgoing : Mode → Bool
  | .bidirectional | .serverClient => true
  | .clientOnly => false

/-- `validate_input_capability`; `windows` is the target. -/
def validateInputCapability (windows : Bool) (config : LocalConfig) (lockScreenRequested : Bool) :
    Except String Bool :=
  if lockScreenRequested && !config.allowLockScreenControl then
    if windows then .ok false else .error "privileged remote input is disabled locally"
  else .ok (lockScreenRequested && config.allowLockScreenControl)

/-- How far the episode is. -/
inductive Phase
  | greeted
  | configured (config : LocalConfig)
  | asking (config : LocalConfig) (epoch : UInt64)
  | doubting (config : LocalConfig) (epoch : UInt64)
  | queueing (config : LocalConfig) (epoch : UInt64)
  | waiting (config : LocalConfig) (ticket : ℕ)
  | admitted (config : LocalConfig)
  | provisioned (accepted : WireMessage)
  | accepted
  | rejected (reason : String)
  | gone
  deriving DecidableEq

/-- The shared state, and the episode's own. `leases` are the outbound leases by peer and
epoch. -/
structure Station where
  peers : List Peer
  ended : EndedLinks
  config : LocalConfig
  links : LinkMemory
  leases : Finset (String × Option UInt64)
  uiPresent : Bool
  phase : Phase

def Station.start (peers : List Peer) (ended : EndedLinks) (config : LocalConfig) : Station :=
  ⟨peers, ended, config, .empty, ∅, false, .greeted⟩

/-- The episode's steps, each up to its next await point. -/
inductive EpisodeStep
  | readConfig
  | check
  | askApproved
  | askPaired (owner : Option String)
  | register
  | resolve
  | finish
  | closed
  | provision (injector : Bool) (localGeometry : Option ScreenGeometry)
  | write (sent : Bool)

/-- What other tasks do to the shared state, each up to its next await point. An unpairing is
an `unpin` and then a `revokePeer`, the retirement of ghosts is an `unpin` of each, an `EndLink` is
an `endLink` and then a `revokeEpoch`, and the peer's `LinkEnded` is a `peerEndLink`. -/
inductive ControlOp
  | book (call : BookCall)
  | endLink (linkId : UInt64)
  | peerEndLink (linkId : UInt64)
  | setConfig (config : LocalConfig)
  | links (op : LinkOp)
  | leaseBegin (fingerprintHex : String) (linkId : Option UInt64)
  | leaseEnd (fingerprintHex : String) (linkId : Option UInt64)
  | ui (present : Bool)

inductive Op
  | episode (step : EpisodeStep)
  | control (op : ControlOp)

/-- What came of a step. -/
inductive Deed
  | none
  | pinned (fingerprintHex : String)
  | unpinned (fingerprintHex : String)
  | ended (byPeer : Bool) (linkId : UInt64) (reset : Bool)
  | configured (mode : Mode)
  | configRead
  | checked
  | accepted
  deriving DecidableEq

/-- `outbound_epoch_owner` may answer this. -/
def IsOwner (leases : Finset (String × Option UInt64)) (epoch : UInt64) : Option String → Prop
  | some owner => (owner, some epoch) ∈ leases
  | none => ∀ lease ∈ leases, lease.2 ≠ some epoch

instance (leases : Finset (String × Option UInt64)) (epoch : UInt64) :
    (owner : Option String) → Decidable (IsOwner leases epoch owner)
  | some owner => inferInstanceAs (Decidable ((owner, some epoch) ∈ leases))
  | none => inferInstanceAs (Decidable (∀ lease ∈ leases, lease.2 ≠ some epoch))

namespace Station

section

variable (peer : String) (hello : Hello) (windows : Bool)

/-- Why a Hello is turned down, on the book and the bans of now and the configuration read. -/
def refusal (s : Station) (config : LocalConfig) : Option String :=
  if isPinned s.peers peer = false then some "peer is not paired"
  else if hello.linkId.any s.ended.linkEnded then
    some "link ended by this computer; press Connect for a fresh link"
  else if modeAllowsIncoming config.mode = false then
    some "this node is configured as controller-only"
  else if modeAllowsOutgoing hello.mode = false then
    some "peer is configured as receiver-only"
  else if hello.linkId.isSome && !s.uiPresent then
    some "the TheKVM app is not running on this computer; open it there and connect again"
  else none

/-- The answer to a session that is accepted. -/
def acceptance (config : LocalConfig) (lockScreenEnabled : Bool)
    (localGeometry : Option ScreenGeometry) : WireMessage :=
  .accepted lockScreenEnabled (config.clipboardEnabled && hello.clipboardEnabled) localGeometry
    true true true (hello.udpMotion && hello.linkId.isSome)

/-- `handle_connection`, from a Hello to Accepted. -/
def episode (s : Station) (step : EpisodeStep) : Station × Deed :=
  match s.phase, step with
  | .greeted, .readConfig => ({ s with phase := .configured s.config }, .configRead)
  | .configured config, .check =>
    match s.refusal peer hello config with
    | some reason => ({ s with phase := .rejected reason }, .none)
    | none =>
      match hello.linkId with
      | none => ({ s with phase := .admitted config }, .checked)
      | some epoch => ({ s with phase := .asking config epoch }, .checked)
  | .asking config epoch, .askApproved =>
    let (links, approved) := s.links.isApproved peer epoch
    ({ s with links, phase := if approved then .admitted config else .doubting config epoch },
      .none)
  | .doubting config epoch, .askPaired owner =>
    -- `outbound_epoch_live`, right behind the answer of `recently_paired`
    let locallyInitiated :=
      owner.any fun owner => Text.toAsciiLowercase owner == Text.toAsciiLowercase peer
    if ¬IsOwner s.leases epoch owner then (s, .none)
    else if s.links.recentlyPaired peer || locallyInitiated then
      ({ s with phase := .admitted config }, .none)
    else ({ s with phase := .queueing config epoch }, .none)
  | .queueing config epoch, .register =>
    match s.links.step (.register peer (some epoch)) with
    | (links, .queue (.registered ticket)) =>
      ({ s with links := (links.step (.wait ticket)).1, phase := .waiting config ticket }, .none)
    | (links, .queue (.refused reason)) => ({ s with links, phase := .rejected reason }, .none)
    | (links, _) => ({ s with links }, .none)
  | .waiting _ ticket, .resolve => ({ s with links := (s.links.step (.resolve ticket)).1 }, .none)
  | .waiting config ticket, .finish =>
    match s.links.step (.finish ticket) with
    | (links, .queue (.waited true)) => ({ s with links, phase := .admitted config }, .none)
    | (links, .queue (.waited false)) =>
      ({ s with links, phase := .rejected "declined the link on this computer" }, .none)
    | (links, _) => ({ s with links }, .none)
  | .waiting _ ticket, .closed =>
    let links := (s.links.step (.cancel ticket)).1
    ({ s with links := (links.step (.drop ticket)).1, phase := .gone }, .none)
  | .admitted config, .provision injector localGeometry =>
    match validateInputCapability windows config hello.lockScreenRequested with
    | .error reason => ({ s with phase := .rejected reason }, .none)
    | .ok lockScreenEnabled =>
      if injector then
        ({ s with phase := .provisioned (acceptance hello config lockScreenEnabled localGeometry) },
          .none)
      else
        ({ s with phase := .rejected "receiver input unavailable: create input injector" }, .none)
  | .provisioned _, .write true => ({ s with phase := .accepted }, .accepted)
  | .provisioned _, .write false => ({ s with phase := .gone }, .none)
  | _, _ => (s, .none)

end

/-- What a call does to the book. -/
def bookDeed (peers : List Peer) (call : BookCall) : Deed :=
  if call.refused peers then .none
  else
    match call with
    | .pin _ fingerprintHex | .pinWithAddress _ fingerprintHex _ =>
      .pinned (Text.toAsciiLowercase fingerprintHex)
    | .unpin fingerprintHex => .unpinned (Text.toAsciiLowercase fingerprintHex)
    | .loadOrCreate => .none

def control (s : Station) : ControlOp → Station × Deed
  | .book call =>
    ({ s with peers := if call.refused s.peers then s.peers else call.next s.peers },
      bookDeed s.peers call)
  | .endLink linkId =>
    ({ s with ended := s.ended.endLink linkId },
      .ended false linkId (maxEndedLinks ≤ s.ended.ended.card))
  | .peerEndLink linkId =>
    ({ s with ended := s.ended.peerEndLink linkId },
      .ended true linkId (maxEndedLinks ≤ s.ended.peerEnded.card))
  | .setConfig config => ({ s with config }, .configured config.mode)
  | .links op => ({ s with links := (s.links.step op).1 }, .none)
  | .leaseBegin fingerprintHex linkId =>
    ({ s with leases := insert (fingerprintHex, linkId) s.leases }, .none)
  | .leaseEnd fingerprintHex linkId =>
    ({ s with leases := s.leases.erase (fingerprintHex, linkId) }, .none)
  | .ui present => ({ s with uiPresent := present }, .none)

def step (peer : String) (hello : Hello) (windows : Bool) (s : Station) : Op → Station × Deed
  | .episode step => s.episode peer hello windows step
  | .control op => s.control op

end Station

section

variable {peer : String} {hello : Hello} {windows : Bool} {s s' : Station} {deed : Deed}
  {deeds : List Deed}

/-! ### What was taken back -/

/-- The peer is pinned, the epoch is not ended, and the mode allows incoming control. -/
def InForce (peer : String) (hello : Hello) (s : Station) : Prop :=
  isPinned s.peers peer = true ∧ hello.linkId.any s.ended.linkEnded = false ∧
    modeAllowsIncoming s.config.mode = true

/-- The peer was taken out of the book since the check, and not pinned again. -/
def Unpinned (peer : String) (deeds : List Deed) : Prop :=
  Latch.Standing (· = .unpinned (identity peer))
    (fun d => d = .checked ∨ d = .pinned (identity peer)) deeds

/-- The epoch was ended from one side since the check, and a full set was not reset since. -/
def Banned (byPeer : Bool) (epoch : UInt64) (deeds : List Deed) : Prop :=
  Latch.Standing (fun d => ∃ reset, d = .ended byPeer epoch reset)
    (fun d => d = .checked ∨ ∃ linkId ≠ epoch, d = .ended byPeer linkId true) deeds

/-- The mode was set to one without incoming control since the configuration was read, and not
set to another since. -/
def Barred (deeds : List Deed) : Prop :=
  Latch.Standing (fun d => ∃ mode, d = .configured mode ∧ modeAllowsIncoming mode = false)
    (fun d => d = .configRead ∨ ∃ mode, d = .configured mode ∧ modeAllowsIncoming mode = true)
    deeds

/-- Something that the episode was admitted on was taken back behind its check and stays so. -/
def TakenBack (peer : String) (hello : Hello) (deeds : List Deed) : Prop :=
  Unpinned peer deeds ∨ (∃ epoch ∈ hello.linkId, ∃ byPeer, Banned byPeer epoch deeds) ∨
    Barred deeds

/-- What the deeds took back is what is not in force. -/
structure Tells (peer : String) (hello : Hello) (deeds : List Deed) (s : Station) : Prop where
  trust : Unpinned peer deeds ↔ isPinned s.peers peer = false
  ban : ∀ epoch ∈ hello.linkId, (Banned false epoch deeds ↔ epoch ∈ s.ended.ended) ∧
    (Banned true epoch deeds ↔ epoch ∈ s.ended.peerEnded)
  mode : Barred deeds ↔ modeAllowsIncoming s.config.mode = false

lemma Tells.inForce_iff (h : Tells peer hello deeds s) :
    InForce peer hello s ↔ ¬TakenBack peer hello deeds := by
  have hban : hello.linkId.any s.ended.linkEnded = false ↔
      ¬∃ epoch ∈ hello.linkId, ∃ byPeer, Banned byPeer epoch deeds := by
    rcases hepoch : hello.linkId with _ | epoch
    · simp
    · obtain ⟨hlocal, hpeer⟩ := h.ban epoch hepoch
      simp [hlocal, hpeer, EndedLinks.linkEnded, EndedLinks.peerLinkEnded]
  rw [InForce, TakenBack, h.trust, h.mode, hban, not_or, not_or, Bool.not_eq_false,
    Bool.not_eq_false]

/-! ### What other tasks do -/

lemma isPinned_nextPin {peers : List Peer} {name fingerprintHex : String} {address : Option String}
    (hgo : BookCall.refused.refusedPin peers name fingerprintHex address = false) :
    isPinned (BookCall.next.nextPin peers name fingerprintHex address) peer = true ↔
      identity peer = Text.toAsciiLowercase fingerprintHex ∨ isPinned peers peer = true := by
  obtain ⟨hfields, -⟩ := refusedPin_eq_false hgo
  obtain ⟨hdigits, -⟩ := Text.hexdigits_toAsciiLowercase (validatePeerFields_hexdigits hfields)
  simp only [isPinned_iff, BookCall.next.nextPin]
  split_ifs with hknown
  · rw [identity_hexdigits hdigits] at hknown
    rw [map_updatePeer]
    refine ⟨Or.inr, fun h => h.elim (fun heq => ?_) id⟩
    rwa [heq]
  · rw [List.map_append, List.mem_append, List.map_singleton, List.mem_singleton]
    exact or_comm

lemma isPinned_unpin {peers : List Peer} {fingerprintHex : String} :
    isPinned ((BookCall.unpin fingerprintHex).next peers) peer = true ↔
      isPinned peers peer = true ∧ identity peer ≠ Text.toAsciiLowercase fingerprintHex := by
  simp only [isPinned_iff, BookCall.next, List.mem_map, List.mem_filter, bne_iff_ne, ne_eq]
  constructor
  · rintro ⟨p, ⟨hp, hne⟩, heq⟩
    exact ⟨⟨p, hp, heq⟩, heq ▸ hne⟩
  · rintro ⟨⟨p, hp, heq⟩, hne⟩
    exact ⟨p, ⟨hp, heq.symm ▸ hne⟩, heq⟩

lemma unpinned_snoc : Unpinned peer (deeds ++ [deed]) ↔ deed = .unpinned (identity peer) ∨
    Unpinned peer deeds ∧ ¬(deed = .checked ∨ deed = .pinned (identity peer)) :=
  Latch.standing_snoc

lemma banned_snoc {byPeer : Bool} {epoch : UInt64} : Banned byPeer epoch (deeds ++ [deed]) ↔
    (∃ reset, deed = .ended byPeer epoch reset) ∨ Banned byPeer epoch deeds ∧
      ¬(deed = .checked ∨ ∃ linkId ≠ epoch, deed = .ended byPeer linkId true) :=
  Latch.standing_snoc

lemma barred_snoc : Barred (deeds ++ [deed]) ↔
    (∃ mode, deed = .configured mode ∧ modeAllowsIncoming mode = false) ∨ Barred deeds ∧
      ¬(deed = .configRead ∨
        ∃ mode, deed = .configured mode ∧ modeAllowsIncoming mode = true) :=
  Latch.standing_snoc

/-! ### What a deed is about -/

def Deed.onBook : Deed → Bool
  | .pinned _ | .unpinned _ | .checked => true
  | _ => false

def Deed.onBans (byPeer : Bool) : Deed → Bool
  | .ended side _ _ => side == byPeer
  | .checked => true
  | _ => false

def Deed.onMode : Deed → Bool
  | .configured _ | .configRead => true
  | _ => false

lemma unpinned_other (h : deed.onBook = false) :
    Unpinned peer (deeds ++ [deed]) ↔ Unpinned peer deeds := by
  rw [unpinned_snoc]
  cases deed with
  | pinned => cases h
  | unpinned => cases h
  | checked => cases h
  | _ => simp

lemma banned_other {byPeer : Bool} {epoch : UInt64} (h : deed.onBans byPeer = false) :
    Banned byPeer epoch (deeds ++ [deed]) ↔ Banned byPeer epoch deeds := by
  rw [banned_snoc]
  cases deed with
  | ended side linkId reset =>
    have hside : side ≠ byPeer := beq_eq_false_iff_ne.mp h
    simp [hside]
  | checked => cases h
  | _ => simp

lemma barred_other (h : deed.onMode = false) : Barred (deeds ++ [deed]) ↔ Barred deeds := by
  rw [barred_snoc]
  cases deed with
  | configured => cases h
  | configRead => cases h
  | _ => simp

lemma about_bookDeed (peers : List Peer) (call : BookCall) :
    (Station.bookDeed peers call).onMode = false ∧
      ∀ byPeer, (Station.bookDeed peers call).onBans byPeer = false := by
  unfold Station.bookDeed
  split
  · exact ⟨rfl, fun _ => rfl⟩
  · cases call <;> exact ⟨rfl, fun _ => rfl⟩

lemma trust_pin {peers : List Peer} {name fingerprintHex : String} {address : Option String}
    (h : Unpinned peer deeds ↔ isPinned peers peer = false)
    (hgo : BookCall.refused.refusedPin peers name fingerprintHex address = false) :
    Unpinned peer (deeds ++ [.pinned (Text.toAsciiLowercase fingerprintHex)]) ↔
      isPinned (BookCall.next.nextPin peers name fingerprintHex address) peer = false := by
  rw [← Bool.not_eq_true, isPinned_nextPin hgo, not_or, Bool.not_eq_true, unpinned_snoc, h]
  simp only [reduceCtorEq, Deed.pinned.injEq, false_or]
  exact and_comm.trans (and_congr_left' (not_congr eq_comm))

lemma trust_book {peers : List Peer} (call : BookCall)
    (h : Unpinned peer deeds ↔ isPinned peers peer = false) :
    Unpinned peer (deeds ++ [Station.bookDeed peers call]) ↔
      isPinned (if call.refused peers then peers else call.next peers) peer = false := by
  unfold Station.bookDeed
  split_ifs with hrefused
  · rw [unpinned_other rfl, h]
  have hgo : call.refused peers = false := by simpa using hrefused
  cases call with
  | loadOrCreate => rw [unpinned_other rfl, h, BookCall.next]
  | pin name fingerprintHex => exact trust_pin h hgo
  | pinWithAddress name fingerprintHex address => exact trust_pin h hgo
  | unpin fingerprintHex =>
    rw [unpinned_snoc, h, ← Bool.not_eq_true (isPinned (BookCall.next _ _) _), isPinned_unpin,
      not_and_not_right]
    simp only [reduceCtorEq, or_self, not_false_eq_true, and_true, Deed.unpinned.injEq]
    rcases isPinned peers peer with _ | _
    · simp
    · simp [eq_comm]

/-- A full set is reset before it takes the next epoch. -/
lemma ban_record {byPeer : Bool} {epoch linkId : UInt64} {ended : Finset UInt64}
    (h : Banned byPeer epoch deeds ↔ epoch ∈ ended) :
    Banned byPeer epoch
        (deeds ++ [.ended byPeer linkId (decide (maxEndedLinks ≤ ended.card))]) ↔
      epoch ∈ ResetSet.record maxEndedLinks ended linkId := by
  rw [banned_snoc, h, ResetSet.record, Finset.mem_insert]
  by_cases heq : epoch = linkId
  · simp [heq]
  · have hne : linkId ≠ epoch := Ne.symm heq
    by_cases hfull : maxEndedLinks ≤ ended.card
    · simp [heq, hne, hfull]
    · simp [heq, hne, hfull]

lemma barred_configured (mode : Mode) :
    Barred (deeds ++ [.configured mode]) ↔
      modeAllowsIncoming mode = false ∨ Barred deeds ∧ modeAllowsIncoming mode = false := by
  rw [barred_snoc]
  simp

lemma trust_control (h : Unpinned peer deeds ↔ isPinned s.peers peer = false) (op : ControlOp) :
    Unpinned peer (deeds ++ [(s.control op).2]) ↔ isPinned (s.control op).1.peers peer = false := by
  cases op with
  | book call => exact trust_book call h
  | _ => exact (unpinned_other rfl).trans h

lemma ban_control {epoch : UInt64} (hlocal : Banned false epoch deeds ↔ epoch ∈ s.ended.ended)
    (hpeer : Banned true epoch deeds ↔ epoch ∈ s.ended.peerEnded) (op : ControlOp) :
    (Banned false epoch (deeds ++ [(s.control op).2]) ↔ epoch ∈ (s.control op).1.ended.ended) ∧
      (Banned true epoch (deeds ++ [(s.control op).2]) ↔
        epoch ∈ (s.control op).1.ended.peerEnded) := by
  cases op with
  | book call =>
    have hbans := (about_bookDeed s.peers call).2
    exact ⟨(banned_other (hbans false)).trans hlocal, (banned_other (hbans true)).trans hpeer⟩
  | endLink linkId => exact ⟨ban_record hlocal, (banned_other rfl).trans hpeer⟩
  | peerEndLink linkId => exact ⟨(banned_other rfl).trans hlocal, ban_record hpeer⟩
  | _ => exact ⟨(banned_other rfl).trans hlocal, (banned_other rfl).trans hpeer⟩

lemma mode_control (h : Barred deeds ↔ modeAllowsIncoming s.config.mode = false)
    (op : ControlOp) :
    Barred (deeds ++ [(s.control op).2]) ↔
      modeAllowsIncoming (s.control op).1.config.mode = false := by
  cases op with
  | book call => exact (barred_other (about_bookDeed s.peers call).1).trans h
  | setConfig config => exact (barred_configured config.mode).trans (or_iff_left_of_imp And.right)
  | _ => exact (barred_other rfl).trans h

/-- Every other task's step is told by its deed. -/
lemma Tells.control (h : Tells peer hello deeds s) (op : ControlOp) :
    Tells peer hello (deeds ++ [(s.control op).2]) (s.control op).1 where
  trust := trust_control h.trust op
  ban epoch hepoch := ban_control (h.ban epoch hepoch).1 (h.ban epoch hepoch).2 op
  mode := mode_control h.mode op

/-- A deed that is about none of it tells nothing new. -/
lemma Tells.other (h : Tells peer hello deeds s) (hpeers : s'.peers = s.peers)
    (hended : s'.ended = s.ended) (hconfig : s'.config = s.config) (hbook : deed.onBook = false)
    (hbans : ∀ byPeer, deed.onBans byPeer = false) (hmode : deed.onMode = false) :
    Tells peer hello (deeds ++ [deed]) s' := by
  refine ⟨?_, fun epoch hepoch => ?_, ?_⟩
  · rw [unpinned_other hbook, hpeers]
    exact h.trust
  · rw [banned_other (hbans false), banned_other (hbans true), hended]
    exact h.ban epoch hepoch
  · rw [barred_other hmode, hconfig]
    exact h.mode

/-! ### The episode -/

/-- The Hello passed the checks. -/
def Phase.checked : Phase → Bool
  | .asking _ _ | .doubting _ _ | .queueing _ _ | .waiting _ _ | .admitted _ | .provisioned _
  | .accepted => true
  | _ => false

/-- What a step of the episode does to the shared state, and how it gets on. -/
inductive Moves (peer : String) (hello : Hello) (s s' : Station) : Deed → Prop
  | read (hphase : s.phase = .greeted) (hs' : s' = { s with phase := .configured s.config }) :
      Moves peer hello s s' .configRead
  | checked {config : LocalConfig} {phase : Phase} (hphase : s.phase = .configured config)
      (hgo : s.refusal peer hello config = none) (hs' : s' = { s with phase })
      (hnot : ∀ config, phase ≠ .configured config) : Moves peer hello s s' .checked
  | accepted {message : WireMessage} (hphase : s.phase = .provisioned message)
      (hs' : s' = { s with phase := .accepted }) : Moves peer hello s s' .accepted
  | onward (hshared : s'.peers = s.peers ∧ s'.ended = s.ended ∧ s'.config = s.config)
      (hphase : s'.phase = s.phase ∨
        (s'.phase.checked = true → s.phase.checked = true) ∧
          ∀ config, s'.phase ≠ .configured config) :
      Moves peer hello s s' .none

lemma Moves.behind (hphase : s.phase.checked = true)
    (hshared : s'.peers = s.peers ∧ s'.ended = s.ended ∧ s'.config = s.config)
    (hnot : ∀ config, s'.phase ≠ .configured config) : Moves peer hello s s' .none :=
  .onward hshared (Or.inr ⟨fun _ => hphase, hnot⟩)

lemma moves_episode (step : EpisodeStep) :
    Moves peer hello s (s.episode peer hello windows step).1
      (s.episode peer hello windows step).2 := by
  have hidle : Moves peer hello s s .none := .onward ⟨rfl, rfl, rfl⟩ (Or.inl rfl)
  have hchecked : ∀ {phase : Phase}, s.phase = phase → phase.checked = true →
      s.phase.checked = true := fun hphase h => hphase ▸ h
  unfold Station.episode
  split
  case h_1 hphase => exact .read hphase rfl
  case h_2 config hphase =>
    split
    · exact .onward ⟨rfl, rfl, rfl⟩ (Or.inr ⟨Bool.noConfusion, fun _ h => Phase.noConfusion h⟩)
    · split
      · exact .checked hphase ‹_› rfl fun _ h => Phase.noConfusion h
      · exact .checked hphase ‹_› rfl fun _ h => Phase.noConfusion h
  case h_3 config epoch hphase =>
    refine .behind (hchecked hphase rfl) ⟨rfl, rfl, rfl⟩ fun _ h => ?_
    simp only at h
    split at h <;> cases h
  case h_4 config epoch owner hphase =>
    dsimp only
    split_ifs
    · exact .behind (hchecked hphase rfl) ⟨rfl, rfl, rfl⟩ fun _ h => Phase.noConfusion h
    · exact .behind (hchecked hphase rfl) ⟨rfl, rfl, rfl⟩ fun _ h => Phase.noConfusion h
    · exact hidle
  case h_5 config epoch hphase =>
    split
    · exact .behind (hchecked hphase rfl) ⟨rfl, rfl, rfl⟩ fun _ h => Phase.noConfusion h
    · exact .behind (hchecked hphase rfl) ⟨rfl, rfl, rfl⟩ fun _ h => Phase.noConfusion h
    · exact .onward ⟨rfl, rfl, rfl⟩ (Or.inl rfl)
  case h_6 => exact .onward ⟨rfl, rfl, rfl⟩ (Or.inl rfl)
  case h_7 config ticket hphase =>
    split
    · exact .behind (hchecked hphase rfl) ⟨rfl, rfl, rfl⟩ fun _ h => Phase.noConfusion h
    · exact .behind (hchecked hphase rfl) ⟨rfl, rfl, rfl⟩ fun _ h => Phase.noConfusion h
    · exact .onward ⟨rfl, rfl, rfl⟩ (Or.inl rfl)
  case h_8 config ticket hphase =>
    exact .behind (hchecked hphase rfl) ⟨rfl, rfl, rfl⟩ fun _ h => Phase.noConfusion h
  case h_9 config injector localGeometry hphase =>
    split
    · exact .behind (hchecked hphase rfl) ⟨rfl, rfl, rfl⟩ fun _ h => Phase.noConfusion h
    · split_ifs
      · exact .behind (hchecked hphase rfl) ⟨rfl, rfl, rfl⟩ fun _ h => Phase.noConfusion h
      · exact .behind (hchecked hphase rfl) ⟨rfl, rfl, rfl⟩ fun _ h => Phase.noConfusion h
  case h_10 message hphase => exact .accepted hphase rfl
  case h_11 message hphase =>
    exact .behind (hchecked hphase rfl) ⟨rfl, rfl, rfl⟩ fun _ h => Phase.noConfusion h
  case h_12 => exact hidle

/-- What the deeds tell, as far as the episode is. -/
structure Watched (peer : String) (hello : Hello) (deeds : List Deed) (s : Station) : Prop where
  configured : ∀ config, s.phase = .configured config → modeAllowsIncoming config.mode = true →
    (Barred deeds ↔ modeAllowsIncoming s.config.mode = false)
  checked : s.phase.checked = true → Tells peer hello deeds s

lemma refusal_none {config : LocalConfig} (h : s.refusal peer hello config = none) :
    isPinned s.peers peer = true ∧ hello.linkId.any s.ended.linkEnded = false ∧
      modeAllowsIncoming config.mode = true := by
  unfold Station.refusal at h
  split_ifs at h with hpinned hended hmode
  exact ⟨by simpa using hpinned, by simpa using hended, by simpa using hmode⟩

/-- **One step is told by its deed.** -/
lemma Watched.step (h : Watched peer hello deeds s) (op : Op) :
    Watched peer hello (deeds ++ [(s.step peer hello windows op).2])
      (s.step peer hello windows op).1 := by
  cases op with
  | control op =>
    have hphase : (s.control op).1.phase = s.phase := by cases op <;> rfl
    refine ⟨fun config hconfig hallows => ?_, fun hchecked => ?_⟩
    · exact mode_control (h.configured config (hphase ▸ hconfig) hallows) op
    · exact (h.checked (hphase ▸ hchecked)).control op
  | episode step =>
    have hmoves : Moves peer hello s (s.episode peer hello windows step).1 _ := moves_episode step
    simp only [Station.step]
    generalize (s.episode peer hello windows step) = r at hmoves ⊢
    obtain ⟨s', deed⟩ := r
    dsimp only at hmoves ⊢
    cases hmoves with
    | read hphase hs' =>
      subst hs'
      refine ⟨fun config hconfig hallows => ?_, Bool.noConfusion⟩
      obtain rfl := Phase.configured.inj hconfig
      rw [barred_snoc]
      simp [hallows]
    | @checked config phase hphase hgo hs' hnot =>
      subst hs'
      obtain ⟨hpinned, hended, hallows⟩ := refusal_none hgo
      refine ⟨fun config hconfig => absurd hconfig (hnot config), fun _ => ?_⟩
      refine ⟨?_, fun epoch hepoch => ?_, (barred_other rfl).trans (h.configured _ hphase hallows)⟩
      · simp [unpinned_snoc, hpinned]
      · obtain ⟨hlocal, hpeer⟩ : epoch ∉ s.ended.ended ∧ epoch ∉ s.ended.peerEnded := by
          rw [Option.mem_def.mp hepoch] at hended
          simpa [EndedLinks.linkEnded, EndedLinks.peerLinkEnded] using hended
        simp [banned_snoc, hlocal, hpeer]
    | accepted hphase hs' =>
      subst hs'
      refine ⟨fun config hconfig => Phase.noConfusion hconfig, fun _ => ?_⟩
      exact (h.checked (hphase ▸ rfl)).other rfl rfl rfl rfl (fun _ => rfl) rfl
    | onward hshared hphase =>
      obtain ⟨hpeers, hended, hconfig⟩ := hshared
      rcases hphase with hphase | ⟨hchecked, hnot⟩
      · refine ⟨fun config hconfigured hallows => ?_, fun hchecked => ?_⟩
        · rw [barred_other rfl, hconfig]
          exact h.configured config (hphase ▸ hconfigured) hallows
        · exact (h.checked (hphase ▸ hchecked)).other hpeers hended hconfig rfl (fun _ => rfl) rfl
      · refine ⟨fun config hconfigured => absurd hconfigured (hnot config), fun h' => ?_⟩
        exact (h.checked (hchecked h')).other hpeers hended hconfig rfl (fun _ => rfl) rfl

end

/-! ### Runs -/

section

variable (peer : String) (hello : Hello) (windows : Bool) (start : Station)

/-- The daemon behind the steps of a run. -/
abbrev after (ops : List Op) : Station := Trace.final (Station.step peer hello windows) start ops

/-- What came of the steps. -/
abbrev deeds (ops : List Op) : List Deed :=
  Trace.outputs (Station.step peer hello windows) start ops

/-- The step writes Accepted. -/
def Accepts (before : List Op) (op : Op) : Prop :=
  ((after peer hello windows start before).step peer hello windows op).2 = .accepted

end

variable {peer : String} {hello : Hello} {windows : Bool}

lemma watched_after {start : Station} (hstart : start.phase = .greeted) (ops : List Op) :
    Watched peer hello (deeds peer hello windows start ops)
      (after peer hello windows start ops) := by
  refine Trace.always
    (I := fun ops s => Watched peer hello (deeds peer hello windows start ops) s) ?_
    fun m op hm => ?_
  · refine ⟨fun config hconfig => ?_, fun hchecked => ?_⟩
    · rw [hstart] at hconfig
      cases hconfig
    · rw [hstart] at hchecked
      cases hchecked
  · rw [deeds, Trace.outputs_snoc]
    exact hm.step op

/-- Accepted is written only by an episode that is provisioned. -/
lemma provisioned_of_accepts {s : Station} {op : Op}
    (h : (s.step peer hello windows op).2 = .accepted) :
    ∃ message, s.phase = .provisioned message := by
  cases op with
  | control op =>
    cases op with
    | book call =>
      simp only [Station.step, Station.control, Station.bookDeed] at h
      split_ifs at h
      split at h <;> cases h
    | _ => cases h
  | episode step =>
    have hmoves : Moves peer hello s (s.episode peer hello windows step).1 _ := moves_episode step
    simp only [Station.step] at h
    rw [h] at hmoves
    cases hmoves with
    | accepted hphase => exact ⟨_, hphase⟩

/-- **Acceptance is decided when it is written.** Along a run Accepted is written only while the
peer is pinned, the epoch not ended and the mode one with incoming control, exactly if it is
never written while something the episode was admitted on, taken back behind its check, stays
so. -/
theorem accepted_in_force_iff (peer : String) (hello : Hello) (windows : Bool)
    (peers : List Peer) (ended : EndedLinks) (config : LocalConfig) (ops : List Op) :
    Trace.Each (fun before op =>
        Accepts peer hello windows (.start peers ended config) before op →
          InForce peer hello (after peer hello windows (.start peers ended config) before)) ops ↔
      Trace.Each (fun before op =>
        Accepts peer hello windows (.start peers ended config) before op →
          ¬TakenBack peer hello (deeds peer hello windows (.start peers ended config) before))
        ops := by
  refine Trace.each_congr fun before op _ => ?_
  refine imp_congr_right fun haccepts => ?_
  have hwatched : Watched peer hello _
      (after peer hello windows (.start peers ended config) before) := watched_after rfl before
  obtain ⟨message, hphase⟩ := provisioned_of_accepts haccepts
  exact (hwatched.checked (hphase ▸ rfl)).inForce_iff

def officeHello : Hello :=
  ⟨"office", .bidirectional, false, true, none, true, true, true, some 7, false⟩

abbrev officeStation : Station := .start [officePeer] .fresh ⟨.bidirectional, false, true⟩

/-- The user allows the link, and before the episode hears of it something else is done. -/
def onceAllowed (op : ControlOp) : List Op :=
  [.control (.ui true), .episode .readConfig, .episode .check, .episode .askApproved,
    .episode (.askPaired none), .episode .register,
    .control (.links (.decide officeFingerprint 7 true)), .control op, .episode .resolve,
    .episode .finish, .episode (.provision true none)]

/-- Accepted is written though the peer's link is taken back by what was done. -/
def WrittenAfter (op : ControlOp) : Prop :=
  Accepts officeFingerprint officeHello false officeStation (onceAllowed op)
      (.episode (.write true)) ∧
    ¬InForce officeFingerprint officeHello
      (after officeFingerprint officeHello false officeStation (onceAllowed op))

/-- The peer hangs up, is retired as a ghost, or the daemon becomes controller-only. -/
theorem accepted_though_taken_back :
    WrittenAfter (.peerEndLink 7) ∧ WrittenAfter (.book (.unpin officeFingerprint)) ∧
      WrittenAfter (.setConfig ⟨.serverClient, false, true⟩) := by
  unfold WrittenAfter Accepts InForce
  decide

/-! ### Requests that wait -/

/-- A step takes the approvals some steps of their own further. -/
lemma links_step (peer : String) (hello : Hello) (windows : Bool) (s : Station) (op : Op) :
    ∃ ops, (s.step peer hello windows op).1.links = Trace.final LinkMemory.step s.links ops := by
  have hself : ∃ ops, s.links = Trace.final LinkMemory.step s.links ops := ⟨[], rfl⟩
  cases op with
  | control op =>
    cases op with
    | links op => exact ⟨[op], rfl⟩
    | _ => exact hself
  | episode step =>
    simp only [Station.step]
    unfold Station.episode
    split
    case h_2 =>
      split
      · exact hself
      · split <;> exact hself
    case h_3 config epoch _ => exact ⟨[.isApproved peer epoch], rfl⟩
    case h_4 =>
      dsimp only
      split_ifs <;> exact hself
    case h_5 config epoch _ =>
      split
      case h_1 links ticket heq =>
        refine ⟨[.register peer (some epoch), .wait ticket], ?_⟩
        rw [Trace.final_cons, heq, Trace.final_cons, Trace.final_nil]
      case h_2 links reason heq =>
        refine ⟨[.register peer (some epoch)], ?_⟩
        rw [Trace.final_cons, heq, Trace.final_nil]
      case h_3 links answer _ _ heq =>
        refine ⟨[.register peer (some epoch)], ?_⟩
        rw [Trace.final_cons, heq, Trace.final_nil]
    case h_6 config ticket _ => exact ⟨[.resolve ticket], rfl⟩
    case h_7 config ticket _ =>
      refine ⟨[.finish ticket], ?_⟩
      split
      case h_1 links heq => rw [Trace.final_cons, heq, Trace.final_nil]
      case h_2 links heq => rw [Trace.final_cons, heq, Trace.final_nil]
      case h_3 links answer _ _ heq => rw [Trace.final_cons, heq, Trace.final_nil]
    case h_8 config ticket _ => exact ⟨[.cancel ticket, .drop ticket], rfl⟩
    case h_9 =>
      split
      · exact hself
      · split <;> exact hself
    all_goals exact hself

lemma sound_remembered (ops : List LinkOp) : (remembered ops).queue.Sound := by
  exact Trace.always (I := fun _ m => (LinkMemory.queue m).Sound) (sound_after linkApprovals [])
    fun m op hm => LinkMemory.sound_step hm op

/-- The approvals of the daemon are those of a run of their own. -/
lemma links_after (peer : String) (hello : Hello) (windows : Bool) {start : Station}
    (hstart : start.links = .empty) (ops : List Op) :
    ∃ ops', (after peer hello windows start ops).links = remembered ops' := by
  refine Trace.always (I := fun _ s => ∃ ops', Station.links s = remembered ops')
    ⟨[], hstart⟩ fun m op hm => ?_
  obtain ⟨ops', hops'⟩ := hm
  obtain ⟨more, hmore⟩ := links_step peer hello windows _ op
  refine ⟨ops' ++ more, ?_⟩
  rw [hmore, hops']
  exact (Trace.final_append _ _ _ _).symm

/-- The request waits on a closed channel, or the episode is over. -/
structure Shut (t : ℕ) (s : Station) : Prop where
  sound : s.links.queue.Sound
  closed : s.links.queue.Closed t
  phase : (∃ config, s.phase = .waiting config t) ∨ (∃ reason, s.phase = .rejected reason) ∨
    s.phase = .gone

lemma Shut.step {s : Station} {t : ℕ} (h : Shut t s) (op : Op) :
    Shut t (s.step peer hello windows op).1 ∧ (s.step peer hello windows op).2 ≠ .accepted := by
  obtain ⟨ops, hops⟩ := links_step peer hello windows s op
  have hlinks : (s.step peer hello windows op).1.links.queue.Sound ∧
      (s.step peer hello windows op).1.links.queue.Closed t := by
    rw [hops]
    refine Trace.always (I := fun _ m => (LinkMemory.queue m).Sound ∧ m.queue.Closed t)
      ⟨h.sound, h.closed⟩ fun m op hm => ?_
    exact ⟨LinkMemory.sound_step hm.1 op, LinkMemory.closed_step hm.1 hm.2 op⟩
  refine ⟨⟨hlinks.1, hlinks.2, ?_⟩, fun haccepts => ?_⟩
  · cases op with
    | control op =>
      have hphase : (s.control op).1.phase = s.phase := by cases op <;> rfl
      simp only [Station.step, hphase]
      exact h.phase
    | episode step =>
      simp only [Station.step]
      rcases h.phase with ⟨config, hphase⟩ | ⟨reason, hphase⟩ | hphase
      · unfold Station.episode
        rw [hphase]
        cases step with
        | finish =>
          have hqueue : (s.links.queue.step linkApprovals (.finish t)).2 ≠ .waited true :=
            h.closed.finish h.sound
          have hno : (s.links.step (.finish t)).2 ≠ .queue (.waited true) := fun heq =>
            hqueue (LinkAnswer.queue.inj heq)
          dsimp only
          split
          case h_1 links heq =>
            rw [heq] at hno
            exact absurd rfl hno
          · exact Or.inr (Or.inl ⟨_, rfl⟩)
          · exact Or.inl ⟨config, rfl⟩
        | closed => exact Or.inr (Or.inr rfl)
        | resolve => exact Or.inl ⟨config, rfl⟩
        | _ => exact Or.inl ⟨config, hphase⟩
      · unfold Station.episode
        rw [hphase]
        exact Or.inr (Or.inl ⟨reason, hphase⟩)
      · unfold Station.episode
        rw [hphase]
        exact Or.inr (Or.inr hphase)
  · obtain ⟨message, hprovisioned⟩ := provisioned_of_accepts haccepts
    rcases h.phase with ⟨config, hphase⟩ | ⟨reason, hphase⟩ | hphase
    · cases hphase.symm.trans hprovisioned
    · cases hphase.symm.trans hprovisioned
    · cases hphase.symm.trans hprovisioned

/-- **A revocation reaches a request that waits.** Taken off the queue undecided, with its peer or
with its epoch, a request is not accepted any more. -/
theorem revoked_request_is_refused {start : Station} (hstart : start.links = .empty)
    {before rest : List Op} {op : LinkOp} {config : LocalConfig} {epoch : UInt64} {t : ℕ}
    (hphase : (after peer hello windows start before).phase = .waiting config t)
    (hlisted : (after peer hello windows start before).links.queue.listed
      (Text.toAsciiLowercase peer, epoch) = some t)
    (hop : op = .revokePeer peer ∨ op = .revokeEpoch epoch) :
    .accepted ∉ Trace.outputs (Station.step peer hello windows)
      (after peer hello windows start (before ++ [.control (.links op)])) rest := by
  have hsound : (after peer hello windows start before).links.queue.Sound := by
    obtain ⟨ops', hops'⟩ := links_after peer hello windows hstart before
    rw [hops']
    exact sound_remembered ops'
  have hshut : Shut t (after peer hello windows start (before ++ [.control (.links op)])) := by
    rw [after, Trace.final_snoc]
    refine ⟨LinkMemory.sound_step hsound op, ?_, Or.inl ⟨config, hphase⟩⟩
    rcases hop with rfl | rfl
    · exact Queue.closed_retain hsound hlisted (decide_eq_false (not_not.mpr rfl))
    · exact Queue.closed_retain hsound hlisted (decide_eq_false (not_not.mpr rfl))
  generalize after peer hello windows start (before ++ [.control (.links op)]) = s at hshut
  induction rest generalizing s with
  | nil => exact List.not_mem_nil
  | cons op' rest ih =>
    obtain ⟨hnext, hnot⟩ : Shut t (Station.step peer hello windows s op').1 ∧ _ := hshut.step op'
    rw [Trace.outputs, List.mem_cons, not_or]
    exact ⟨Ne.symm hnot, ih _ hnext⟩

end TheKvm.Admission

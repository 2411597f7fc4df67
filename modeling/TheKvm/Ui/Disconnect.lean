import TheKvm.Daemon.ControlServer
import TheKvm.Daemon.UiPresence
import TheKvm.Ui.FollowLink

/-!
Disconnect, and what polls dial back after it.

A Disconnect ends the links of a station one by one, while polls go by statuses from before and
from after it. What it ended is to stay down for a while; a link that is new is to come up.
-/

namespace TheKvm

open FollowLink

/-! ### A Disconnect -/

/-- What a Disconnect has to do. -/
inductive HangUpStep
  | tombstoneDialback (address : String)
  | disconnectLink (fingerprintHex : Option String) (address : String) (linkId : Option UInt64)
  | stopSession
  /-- It hangs up every link that a status lists. -/
  | status

/-- A Disconnect under way: when it was pressed, the hosts that the user connected to or allowed a
link from since then, and what is left of it. -/
structure HangUp where
  since : Instant
  welcomed : List String
  left : List HangUpStep

/-- `on_disconnect`. -/
def onDisconnect (s : Station) : HangUp where
  since := s.now
  welcomed := []
  left :=
    (match s.slot with
      | some child =>
        [.tombstoneDialback child.plan.address,
          .disconnectLink none child.plan.address child.plan.linkId]
      | none => []) ++ [.stopSession, .status]

def hangUpLink (link : LinkView) : List HangUpStep :=
  [.tombstoneDialback link.address,
    .disconnectLink (some link.fingerprintHex) link.address link.linkId]

namespace Station

/-- The live links of a peer, which a teardown drops. -/
def dropped (s : Station) (fingerprintHex : Option String) : List LinkView :=
  (s.inbound.live.map LiveLink.link).filter fun link => fingerprintHex = some link.fingerprintHex

/-- `teardown_link`; the sessions that it drops unregister later. -/
def teardownLink (s : Station) (fingerprintHex : Option String) (linkId : Option UInt64) :
    Station :=
  { s with
    inbound := fingerprintHex.elim s.inbound (AttendedDaemon.forgetRecentInbound s.inbound)
    ended := s.ended.teardownLink linkId }

/-- What `start_session_flow` does before it dials. -/
def startSession (s : Station) (address : String) : Station :=
  let s := (s.clearDialbackTombstone address).reap
  if s.slot.any (·.plan.dialback) then { s with slot := none } else s

/-- No child runs, be it that one has exited and was not reaped. -/
def idle (s : Station) : Bool := s.slot.all fun child => !child.alive

/-- What goes on besides: tombstones, launches and the polls' part in them are not of it. -/
def goesOn : Op → Bool
  | .launchChild _ _ | .tombstoneDialback _ | .clearDialbackTombstone _ | .follow _ => false
  | _ => true

end Station

/-- A station and its Disconnects, and what came of them. -/
structure Parting where
  station : Station
  leases : List Control.LeaseInfo
  hangUps : List HangUp
  /-- what a poll has decided on and not done yet -/
  todo : List FollowEffect
  /-- the host of each link that a Disconnect ended, and when that was pressed -/
  downSince : List (String × Instant)
  endedEpochs : List (Option UInt64)
  /-- the peers and epochs that a poll showed while it could dial back -/
  offered : List (String × Option UInt64)

namespace Parting

open Station

inductive Op
  | disconnect
  /-- A Disconnect goes on. The daemon answers or not, and lists its links in some order. -/
  | hangUp (thread : ℕ) (answered : Bool) (live : List LiveLink)
  /-- The user connects, or a pairing or a link is restarted. -/
  | startSession (address : String) (byUser : Bool)
  | launch (address : String) (linkId : Option UInt64) (byUser spawns : Bool)
  /-- The user allows a link that was queued with an address, and one that can be dialled may be
  found for it. -/
  | allow (queued : String) (linkId : UInt64) (dialable : Option String) (spawns : Bool)
  | linkLease (lease : Control.LeaseInfo)
  | leaseEnd (fingerprintHex : String) (linkId : Option UInt64)
  /-- A poll goes by the status it fetched, and then acts. -/
  | follow
  | act (spawns : Bool)
  | station (op : Station.Op)

/-- The user wants links with the host again. -/
def welcome (s : Parting) (address : String) : Parting :=
  { s with
    hangUps := s.hangUps.map fun h => { h with welcomed := tombstoneKey address :: h.welcomed }
    downSince := s.downSince.filter fun down => down.1 ≠ tombstoneKey address }

/-- The hosts and epochs of the links that a step of a Disconnect ends. -/
def ends (s : Parting) (answered : Bool) : HangUpStep → List (String × Option UInt64)
  | .disconnectLink fingerprintHex address linkId =>
    match answered, Control.disconnectLink s.leases fingerprintHex (some address) linkId with
    | true, .disconnected fingerprintHex linkId =>
      (tombstoneKey address, linkId) :: (s.station.dropped fingerprintHex).map fun link =>
        (tombstoneKey link.address, link.linkId)
    | _, _ => []
  | .stopSession => s.station.slot.toList.map fun child =>
    (tombstoneKey child.plan.address, child.plan.linkId)
  | .tombstoneDialback _ | .status => []

/-- What a step of a Disconnect does. -/
def perform (s : Parting) (answered : Bool) : HangUpStep → Parting
  | .tombstoneDialback address => { s with station := s.station.tombstoneDialback address }
  | .disconnectLink fingerprintHex address linkId =>
    match answered, Control.disconnectLink s.leases fingerprintHex (some address) linkId with
    | true, .disconnected fingerprintHex ended =>
      { s with
        station := s.station.teardownLink fingerprintHex ended
        -- the lease that it went by is taken
        leases := s.leases.eraseP fun lease =>
          linkId.any (lease.linkId = some ·) || lease.address = address }
    | _, _ => s
  | .stopSession => { s with station := { s.station with slot := none } }
  | .status => s

/-- What a step of a Disconnect adds to what is left of it. -/
def found (s : Parting) (answered : Bool) (live : List LiveLink) : HangUpStep → List HangUpStep
  | .status =>
    if answered = true ∧ live.Perm s.station.inbound.live then
      live.flatMap fun entry => hangUpLink entry.link
    else []
  | _ => []

def hangUp (s : Parting) (thread : ℕ) (answered : Bool) (live : List LiveLink) : Parting :=
  match s.hangUps[thread]? with
  | some ⟨since, welcomed, step :: left⟩ =>
    let ended := s.ends answered step
    let down := (ended.map Prod.fst).filter (· ∉ welcomed)
    { s.perform answered step with
      hangUps := s.hangUps.set thread ⟨since, welcomed, s.found answered live step ++ left⟩
      downSince := down.map (·, since) ++ s.downSince
      endedEpochs := ended.map Prod.snd ++ s.endedEpochs }
  | _ => s

/-- The child's connection to the daemon is gone, and so is the link. -/
def leaseEnd (s : Parting) (fingerprintHex : String) (linkId : Option UInt64) : Parting :=
  let held (lease : Control.LeaseInfo) : Bool :=
    lease.fingerprintHex = fingerprintHex && lease.linkId = linkId
  if s.leases.any held then
    { s with
      station := s.station.teardownLink (some fingerprintHex) linkId
      leases := s.leases.eraseP held }
  else s

/-- A poll may dial back. -/
def mayDial (s : Parting) (status : LinkStatus) : Bool :=
  s.station.idle && shouldDialBack status.mode s.station.ceremonyOpen

def follow (s : Parting) : Parting :=
  match s.station.fetched with
  | some status =>
    let (following, effects) := s.station.followed status
    let shown := status.sessions.map fun link => (link.fingerprintHex, link.linkId)
    { s with
      station := { s.station with following, fetched := none }
      todo := s.todo ++ effects
      offered := (if s.mayDial status then shown else []) ++ s.offered }
  | none => s

def act (s : Parting) (spawns : Bool) : Parting :=
  match s.todo with
  | effect :: todo => { s with station := s.station.perform spawns effect, todo }
  | [] => s

def step (s : Parting) : Op → Parting × Unit
  | .disconnect => ({ s with hangUps := s.hangUps ++ [onDisconnect s.station] }, ())
  | .hangUp thread answered live => (s.hangUp thread answered live, ())
  | .startSession address byUser =>
    let s := if byUser then s.welcome address else s
    ({ s with station := s.station.startSession address }, ())
  | .launch address linkId byUser spawns =>
    let s := if byUser then s.welcome address else s
    ({ s with station := s.station.launchChild ⟨address, false, linkId⟩ spawns }, ())
  | .allow queued linkId dialable spawns =>
    let s := s.welcome queued
    match dialable with
    | none => (s, ())
    | some address =>
      let s := s.welcome address
      if s.station.slot.isSome then (s, ())
      else
        ({ s with station := s.station.launchChild ⟨address, true, some linkId⟩ spawns }, ())
  | .linkLease lease => ({ s with leases := Control.leaseBegin s.leases lease }, ())
  | .leaseEnd fingerprintHex linkId => (s.leaseEnd fingerprintHex linkId, ())
  | .follow => (s.follow, ())
  | .act spawns => (s.act spawns, ())
  | .station op => (if goesOn op then { s with station := s.station.step op } else s, ())

def init (mode : Mode) (peerAt : String → String) : Parting :=
  ⟨.init mode peerAt, [], [], [], [], [], []⟩

def after (mode : Mode) (peerAt : String → String) (ops : List Op) : Parting :=
  Trace.final step (init mode peerAt) ops

/-! ### What a Disconnect promises -/

/-- A Disconnect ended a link of the host less than 30 seconds ago. -/
def Down (s : Parting) (host : String) : Prop :=
  ∃ since, (host, since) ∈ s.downSince ∧ s.station.now - since < tombstoneMs

/-- A child is launched to dial a link back. -/
def DialsTo (s : Parting) (address : String) : Op → Prop
  | .act _ => ∃ linkId todo, s.todo = .dialBack address linkId :: todo
  | .allow _ _ dialable _ => dialable = some address ∧ s.station.slot = none
  | _ => False

/-- Nothing is dialled back to a host that is down. -/
def StaysDown (s : Parting) (op : Op) : Prop :=
  ∀ address, s.DialsTo address op → ¬(s.step op).1.Down (tombstoneKey address)

/-- A link of an epoch that no Disconnect ended is shown, for the first time that a poll may dial
back. -/
structure Fresh (s : Parting) (status : LinkStatus) (link : LinkView) : Prop where
  epoch : link.linkId ∉ s.endedEpochs
  mayDial : s.mayDial status = true
  first : (link.fingerprintHex, link.linkId) ∉ s.offered

/-- A poll dials back what is fresh. -/
def ComesUp (s : Parting) : Op → Prop
  | .follow => ∀ status, s.station.fetched = some status →
    ∀ link ∈ status.sessions, s.Fresh status link →
      .dialBack link.address link.linkId ∈ (s.station.followed status).2
  | _ => True

/-! ### When it is kept -/

/-- The host has a tombstone that is not from before. -/
def Marked (s : Station) (host : String) (since : Instant) : Prop :=
  ∃ t, s.tombstones.lookup host = some t ∧ since ≤ t

/-- The link is listed first; if no child is left in the slot it is new to the polls, or a retry is
due, and its host has no tombstone, and a child that is left has another epoch. -/
def Answers (s : Station) (status : LinkStatus) (link : LinkView) : Prop :=
  ∃ first, status.sessions.head? = some first ∧ first.address = link.address ∧
    first.linkId = link.linkId ∧
    match s.slot with
    | none =>
      dialBackDue s.following.lastInbound s.following.lastAttempt first s.now = true ∧
        s.dialbackSuppressed first.address = false
    | some child => ¬Stays child first.linkId

/-- A Disconnect ends only links of hosts that it has tombstoned and that no poll is about to dial
back; no restart lifts the tombstone of a host that is down; and no child is left for a link of
such a host. -/
def Guarded (s : Parting) : Op → Prop
  | .hangUp thread answered _ =>
    match s.hangUps[thread]? with
    | some ⟨since, welcomed, step :: _⟩ => s.station.now - since < tombstoneMs →
      ∀ link ∈ s.ends answered step, link.1 ∉ welcomed →
        Marked s.station link.1 since ∧
          ∀ address linkId, .dialBack address linkId ∈ s.todo → tombstoneKey address ≠ link.1
    | _ => True
  | .startSession address byUser => byUser = false → ¬s.Down (tombstoneKey address)
  | .follow => ∀ status child link, s.station.fetched = some status →
    s.station.slot = some child → inboundLink status = some link →
    s.station.Leaves status child → ¬s.Down (tombstoneKey link.address)
  | _ => True

/-- A poll has an answer to what is fresh. -/
def AnswersFresh (s : Parting) : Op → Prop
  | .follow => ∀ status, s.station.fetched = some status →
    ∀ link ∈ status.sessions, s.Fresh status link → Answers s.station status link
  | _ => True

/-! ### What a step leaves -/

variable {s s' : Parting}

/-- What is down has a tombstone from then, and no poll is about to dial it back. -/
structure Kept (s : Parting) : Prop where
  since : ∀ h ∈ s.hangUps, h.since ≤ s.station.now
  past : ∀ down ∈ s.downSince, down.2 ≤ s.station.now
  marked : ∀ down ∈ s.downSince, s.station.now - down.2 < tombstoneMs →
    Marked s.station down.1 down.2
  todo : ∀ address linkId, .dialBack address linkId ∈ s.todo → ¬s.Down (tombstoneKey address)

lemma kept_init (mode : Mode) (peerAt : String → String) : (init mode peerAt).Kept where
  since := nofun
  past := nofun
  marked := nofun
  todo := nofun

/-- Time passes, and hosts are welcome again. -/
lemma Down.of_later {host : String} (h : s'.Down host) (hnow : s.station.now ≤ s'.station.now)
    (hdown : s'.downSince ⊆ s.downSince) : s.Down host := by
  obtain ⟨since, hmem, hyoung⟩ := h
  exact ⟨since, hdown hmem, (Nat.sub_le_sub_right hnow since).trans_lt hyoung⟩

lemma Kept.of_same (h : s.Kept) (htombstones : s'.station.tombstones = s.station.tombstones)
    (hnow : s.station.now ≤ s'.station.now)
    (hsince : ∀ h' ∈ s'.hangUps, h'.since ≤ s'.station.now)
    (hdown : s'.downSince ⊆ s.downSince) (htodo : s'.todo ⊆ s.todo) : s'.Kept where
  since := hsince
  past := fun down hmem => (h.past down (hdown hmem)).trans hnow
  marked := fun down hmem hyoung => by
    obtain ⟨t, hlookup, hle⟩ := h.marked down (hdown hmem)
      ((Nat.sub_le_sub_right hnow down.2).trans_lt hyoung)
    exact ⟨t, htombstones ▸ hlookup, hle⟩
  todo := fun address linkId hmem hdowns =>
    h.todo address linkId (htodo hmem) (hdowns.of_later hnow hdown)

/-- A station that keeps its tombstones. -/
lemma Kept.station (h : s.Kept) {station : Station}
    (htombstones : station.tombstones = s.station.tombstones)
    (hnow : s.station.now ≤ station.now) : Kept { s with station } :=
  h.of_same htombstones hnow (fun h' hmem => (h.since h' hmem).trans hnow)
    (List.Subset.refl _) (List.Subset.refl _)

lemma Kept.welcome (h : s.Kept) (address : String) : (s.welcome address).Kept := by
  refine h.of_same rfl (Nat.le_refl _) (fun h' hmem => ?_) (fun _ hmem => ?_) (List.Subset.refl _)
  · obtain ⟨before, hbefore, rfl⟩ := List.mem_map.mp hmem
    exact h.since before hbefore
  · exact List.mem_of_mem_filter hmem

lemma not_down_welcome (address : String) : ¬(s.welcome address).Down (tombstoneKey address) := by
  rintro ⟨since, hmem, -⟩
  exact absurd rfl (of_decide_eq_true (List.mem_filter.mp hmem).2)

/-! ### Tombstones -/

section

variable {st : Station} {host : String} {since : Instant}

/-- A tombstone that is still young is kept by the next one, and that one is younger. -/
lemma Marked.tombstoneDialback (h : Marked st host since) (hyoung : st.now - since < tombstoneMs)
    (hsince : since ≤ st.now) (address : String) :
    Marked (st.tombstoneDialback address) host since := by
  obtain ⟨t, hlookup, hle⟩ := h
  unfold Station.tombstoneDialback
  dsimp only
  split_ifs
  · exact ⟨t, hlookup, hle⟩
  · by_cases hkey : host = tombstoneKey address
    · refine ⟨st.now, ?_, hsince⟩
      rw [hkey]
      exact AList.lookup_insert _
    · refine ⟨t, ?_, hle⟩
      dsimp only
      rw [AList.lookup_insert_ne hkey]
      exact Expiring.lookup_young.mpr ⟨hlookup, (Nat.sub_le_sub_left hle st.now).trans_lt hyoung⟩

/-- Only the tombstone of the host is lifted. -/
lemma Marked.clearDialbackTombstone (h : Marked st host since) {address : String}
    (hkey : host ≠ tombstoneKey address) :
    Marked (st.clearDialbackTombstone address) host since := by
  obtain ⟨t, hlookup, hle⟩ := h
  exact ⟨t, (AList.lookup_erase_ne hkey).trans hlookup, hle⟩

/-- A young tombstone suppresses. -/
lemma Marked.suppressed {address : String} (h : Marked st (tombstoneKey address) since)
    (hyoung : st.now - since < tombstoneMs) : st.dialbackSuppressed address = true := by
  obtain ⟨t, hlookup, hle⟩ := h
  have hkept : (st.tombstones.young tombstoneMs st.now).lookup (tombstoneKey address) = some t :=
    Expiring.lookup_young.mpr ⟨hlookup, (Nat.sub_le_sub_left hle st.now).trans_lt hyoung⟩
  rw [dialbackSuppressed, hkept]
  rfl

lemma reap_same (st : Station) : st.reap.tombstones = st.tombstones ∧ st.reap.now = st.now := by
  unfold Station.reap
  split
  · split_ifs <;> exact ⟨rfl, rfl⟩
  · exact ⟨rfl, rfl⟩

lemma launchChild_same (st : Station) (plan : LinkPlan) (spawns : Bool) :
    (st.launchChild plan spawns).tombstones = st.tombstones ∧
      (st.launchChild plan spawns).now = st.now := by
  unfold Station.launchChild
  split_ifs <;> exact ⟨rfl, rfl⟩

lemma perform_same (st : Station) (spawns : Bool) (effect : FollowEffect) :
    (st.perform spawns effect).tombstones = st.tombstones ∧
      (st.perform spawns effect).now = st.now := by
  cases effect with
  | dialBack address linkId => exact launchChild_same st _ spawns
  | _ => exact ⟨rfl, rfl⟩

/-- What goes on besides keeps the tombstones, and time passes. -/
lemma step_same {op : Station.Op} (hop : goesOn op = true) :
    (st.step op).tombstones = st.tombstones ∧ st.now ≤ (st.step op).now := by
  cases op with
  | launchChild plan spawns => cases hop
  | tombstoneDialback address => cases hop
  | clearDialbackTombstone address => cases hop
  | follow spawns => cases hop
  | pass ms => exact ⟨rfl, Nat.le_add_right _ _⟩
  | reap => exact ⟨(reap_same st).1, (reap_same st).2.ge⟩
  | fetch live seen =>
    simp only [Station.step, Station.fetch]
    split_ifs <;> exact ⟨rfl, Nat.le_refl _⟩
  | _ => exact ⟨rfl, Nat.le_refl _⟩

/-- A session that starts lifts one tombstone. -/
lemma startSession_same (st : Station) (address : String) :
    (st.startSession address).tombstones = (st.clearDialbackTombstone address).tombstones ∧
      (st.startSession address).now = st.now := by
  obtain ⟨htombstones, hnow⟩ := reap_same (st.clearDialbackTombstone address)
  unfold Station.startSession
  dsimp only
  split_ifs <;> exact ⟨htombstones, hnow⟩

end

/-! ### Steps of a Disconnect -/

/-- Only a tombstone of a Disconnect changes the tombstones, and it adds one. -/
lemma perform_keeps (s : Parting) (answered : Bool) (step : HangUpStep) :
    (s.perform answered step).station.now = s.station.now ∧
      (s.perform answered step).todo = s.todo ∧
      ∀ host since, Marked s.station host since → since ≤ s.station.now →
        s.station.now - since < tombstoneMs →
        Marked (s.perform answered step).station host since := by
  cases step with
  | tombstoneDialback address =>
    unfold perform
    dsimp only
    refine ⟨?_, rfl, fun host since h hsince hyoung => ?_⟩
    · unfold Station.tombstoneDialback
      dsimp only
      split_ifs <;> rfl
    · exact h.tombstoneDialback hyoung hsince address
  | disconnectLink fingerprintHex address linkId =>
    unfold perform
    dsimp only
    split <;> exact ⟨rfl, rfl, fun _ _ h _ _ => h⟩
  | stopSession => exact ⟨rfl, rfl, fun _ _ h _ _ => h⟩
  | status => exact ⟨rfl, rfl, fun _ _ h _ _ => h⟩

/-- A turn of a Disconnect is for nothing, or does the step it has come to. -/
lemma hangUp_cases (s : Parting) (thread : ℕ) (answered : Bool) (live : List LiveLink) :
    s.hangUp thread answered live = s ∨
      ∃ since welcomed step left, s.hangUps[thread]? = some ⟨since, welcomed, step :: left⟩ ∧
        s.hangUp thread answered live =
          { s.perform answered step with
            hangUps := s.hangUps.set thread
              ⟨since, welcomed, s.found answered live step ++ left⟩
            downSince := (((s.ends answered step).map Prod.fst).filter (· ∉ welcomed)).map
              (·, since) ++ s.downSince
            endedEpochs := (s.ends answered step).map Prod.snd ++ s.endedEpochs } := by
  unfold hangUp
  split
  · exact Or.inr ⟨_, _, _, _, ‹_›, rfl⟩
  · exact Or.inl rfl

lemma Kept.hangUp (h : s.Kept) {thread : ℕ} {answered : Bool} {live : List LiveLink}
    (hop : s.Guarded (.hangUp thread answered live)) : (s.hangUp thread answered live).Kept := by
  rcases hangUp_cases s thread answered live with
    hsame | ⟨since, welcomed, step, left, hthread, hstep⟩
  · rw [hsame]
    exact h
  simp only [Guarded, hthread] at hop
  obtain ⟨hnow, htodo, hmarked⟩ := perform_keeps s answered step
  have hsince : since ≤ s.station.now := h.since ⟨since, welcomed, step :: left⟩
    (List.mem_of_getElem? hthread)
  have hcases : ∀ down ∈ (((s.ends answered step).map Prod.fst).filter (· ∉ welcomed)).map
      (·, since) ++ s.downSince, down ∈ s.downSince ∨
        down.2 = since ∧ down.1 ∉ welcomed ∧ ∃ link ∈ s.ends answered step, link.1 = down.1 := by
    intro down hmem
    rcases List.mem_append.mp hmem with hnew | hold
    · obtain ⟨host, hhost, rfl⟩ := List.mem_map.mp hnew
      obtain ⟨hended, hwelcomed⟩ := List.mem_filter.mp hhost
      exact Or.inr ⟨rfl, of_decide_eq_true hwelcomed, List.mem_map.mp hended⟩
    · exact Or.inl hold
  rw [hstep]
  refine ⟨fun h' hmem => ?_, fun down hmem => ?_, fun down hmem hyoung => ?_,
    fun address linkId hmem hdown => ?_⟩
  · rw [hnow]
    rcases List.mem_or_eq_of_mem_set hmem with hold | rfl
    · exact h.since h' hold
    · exact hsince
  · rw [hnow]
    rcases hcases down hmem with hold | ⟨heq, -⟩
    · exact h.past down hold
    · exact heq ▸ hsince
  · rw [hnow] at hyoung
    rcases hcases down hmem with hold | ⟨heq, hout, link, hlink, hhost⟩
    · exact hmarked _ _ (h.marked down hold hyoung) (h.past down hold) hyoung
    · rw [heq] at hyoung ⊢
      rw [← hhost] at hout ⊢
      exact hmarked _ _ (hop hyoung link hlink hout).1 hsince hyoung
  · obtain ⟨since', hmem', hyoung⟩ := hdown
    rw [hnow] at hyoung
    rw [htodo] at hmem
    rcases hcases _ hmem' with hold | ⟨heq, hout, link, hlink, hhost⟩
    · exact h.todo address linkId hmem ⟨since', hold, hyoung⟩
    · dsimp only at heq hout hhost
      rw [heq] at hyoung
      rw [← hhost] at hout
      exact (hop hyoung link hlink hout).2 address linkId hmem hhost.symm

/-! ### Polls -/

variable {status : LinkStatus}

/-- What a poll decides to dial back is not down. -/
lemma followed_not_down (h : s.Kept) (hop : s.Guarded .follow)
    (hfetched : s.station.fetched = some status) {address : String} {linkId : Option UInt64}
    (hmem : .dialBack address linkId ∈ (s.station.followed status).2) :
    ¬s.Down (tombstoneKey address) := by
  cases hslot : s.station.slot with
  | none =>
    obtain ⟨link, -, ⟨-, -, hopen⟩, rfl, -⟩ := (mem_dialBack_of_none hslot).mp hmem
    rintro ⟨since, hdown, hyoung⟩
    have hsuppressed := (h.marked _ hdown hyoung).suppressed hyoung
    rw [hopen] at hsuppressed
    cases hsuppressed
  | some child =>
    obtain ⟨hleaves, link, hlink, rfl, -⟩ := (mem_dialBack_of_some hslot).mp hmem
    exact hop status child link hfetched hslot hlink hleaves

lemma Kept.follow (h : s.Kept) (hop : s.Guarded .follow) : s.follow.Kept := by
  unfold Parting.follow
  split
  · rename_i status hfetched
    refine ⟨h.since, h.past, h.marked, fun address linkId hmem hdown => ?_⟩
    rcases List.mem_append.mp hmem with hold | hnew
    · exact h.todo address linkId hold hdown
    · exact followed_not_down h hop hfetched hnew hdown
  · exact h

lemma Kept.act (h : s.Kept) (spawns : Bool) : (s.act spawns).Kept := by
  unfold Parting.act
  split
  · rename_i effect todo htodo
    obtain ⟨htombstones, hnow⟩ := perform_same s.station spawns effect
    refine h.of_same htombstones hnow.ge (fun h' hmem => ?_) (List.Subset.refl _) ?_
    · exact (h.since h' hmem).trans hnow.ge
    · rw [htodo]
      exact List.subset_cons_self _ _
  · exact h

/-- The poll goes by the first live link. -/
lemma inboundLink_of_mem {link : LinkView} (hmem : link ∈ status.sessions) :
    inboundLink status = status.sessions.head? := by
  rcases inboundLink_cases status with ⟨first, hhead, -, hfirst⟩ | ⟨hnil, -⟩
  · rw [hfirst, hhead]
  · rw [hnil] at hmem
    cases hmem

/-- What is fresh is dialled back exactly if it is answered. -/
lemma mem_dialBack_iff {link : LinkView} (hmem : link ∈ status.sessions)
    (hdrive : shouldDialBack status.mode s.station.ceremonyOpen = true) :
    .dialBack link.address link.linkId ∈ (s.station.followed status).2 ↔
      Answers s.station status link := by
  unfold Answers
  cases hslot : s.station.slot with
  | none =>
    rw [mem_dialBack_of_none hslot, inboundLink_of_mem hmem]
    constructor
    · rintro ⟨first, hhead, ⟨-, hdue, hopen⟩, haddress, hid⟩
      exact ⟨first, hhead, haddress.symm, hid.symm, hdue, hopen⟩
    · rintro ⟨first, hhead, haddress, hid, hdue, hopen⟩
      exact ⟨first, hhead, ⟨hdrive, hdue, hopen⟩, haddress.symm, hid.symm⟩
  | some child =>
    rw [mem_dialBack_of_some hslot, Leaves, inboundLink_of_mem hmem]
    constructor
    · rintro ⟨⟨-, first, hhead, hgoes⟩, first', hhead', haddress, hid⟩
      obtain rfl := Option.some.inj (hhead.symm.trans hhead')
      exact ⟨first, hhead, haddress.symm, hid.symm, hgoes⟩
    · rintro ⟨first, hhead, haddress, hid, hgoes⟩
      exact ⟨⟨hdrive, first, hhead, hgoes⟩, first, hhead, haddress.symm, hid.symm⟩

/-- What is fresh comes up exactly if it is answered. -/
lemma comesUp_iff (s : Parting) (op : Op) : s.ComesUp op ↔ s.AnswersFresh op := by
  cases op with
  | follow =>
    refine forall_congr' fun status => forall_congr' fun _ => forall_congr' fun link =>
      forall_congr' fun hmem => forall_congr' fun hfresh => ?_
    exact mem_dialBack_iff hmem (Bool.and_eq_true_iff.mp hfresh.mayDial).2
  | _ => exact Iff.rfl

/-! ### Runs -/

lemma Kept.startSession (h : s.Kept) (address : String) (hdown : ¬s.Down (tombstoneKey address)) :
    Kept { s with station := s.station.startSession address } := by
  obtain ⟨htombstones, hnow⟩ := startSession_same s.station address
  refine ⟨fun h' hmem => ?_, fun down hmem => ?_, fun down hmem hyoung => ?_,
    fun address' linkId hmem hdown' => ?_⟩
  · exact (h.since h' hmem).trans hnow.ge
  · exact (h.past down hmem).trans hnow.ge
  · dsimp only at hyoung
    rw [hnow] at hyoung
    have hkey : down.1 ≠ tombstoneKey address := by
      rintro heq
      exact hdown ⟨down.2, heq ▸ hmem, hyoung⟩
    obtain ⟨t, hlookup, hle⟩ := (h.marked down hmem hyoung).clearDialbackTombstone hkey
    exact ⟨t, htombstones ▸ hlookup, hle⟩
  · exact h.todo address' linkId hmem (hdown'.of_later hnow.ge (List.Subset.refl _))

lemma Kept.launch (h : s.Kept) (plan : LinkPlan) (spawns : Bool) :
    Kept { s with station := s.station.launchChild plan spawns } := by
  obtain ⟨htombstones, hnow⟩ := launchChild_same s.station plan spawns
  exact h.station htombstones hnow.ge

lemma Kept.step (h : s.Kept) {op : Op} (hop : s.Guarded op) : (s.step op).1.Kept := by
  cases op with
  | disconnect =>
    refine h.of_same rfl (Nat.le_refl _) (fun h' hmem => ?_) (List.Subset.refl _)
      (List.Subset.refl _)
    rcases List.mem_append.mp hmem with hold | hnew
    · exact h.since h' hold
    · obtain rfl := List.mem_singleton.mp hnew
      exact Nat.le_refl _
  | hangUp thread answered live => exact h.hangUp hop
  | startSession address byUser =>
    cases byUser with
    | true => exact (h.welcome address).startSession address (not_down_welcome address)
    | false => exact h.startSession address (hop rfl)
  | launch address linkId byUser spawns =>
    cases byUser with
    | true => exact (h.welcome address).launch _ spawns
    | false => exact h.launch _ spawns
  | allow queued linkId dialable spawns =>
    cases dialable with
    | none => exact h.welcome queued
    | some address =>
      have hwelcome := (h.welcome queued).welcome address
      simp only [Parting.step]
      split_ifs
      · exact hwelcome
      · exact hwelcome.launch _ spawns
  | linkLease lease =>
    exact h.of_same rfl (Nat.le_refl _) h.since (List.Subset.refl _) (List.Subset.refl _)
  | leaseEnd fingerprintHex linkId =>
    simp only [Parting.step, leaseEnd]
    split_ifs
    · exact h.of_same rfl (Nat.le_refl _) h.since (List.Subset.refl _) (List.Subset.refl _)
    · exact h
  | follow => exact h.follow hop
  | act spawns => exact h.act spawns
  | station op =>
    simp only [Parting.step]
    split_ifs with hgoes
    · exact h.station (step_same hgoes).1 (step_same hgoes).2
    · exact h

/-- What is dialled back is not down. -/
lemma Kept.staysDown (h : s.Kept) (op : Op) : s.StaysDown op := by
  intro address hdials hdown
  cases op with
  | act spawns =>
    obtain ⟨linkId, todo, htodo⟩ := hdials
    have hmem : .dialBack address linkId ∈ s.todo := htodo ▸ List.mem_cons_self
    have hnow : (s.act spawns).station.now = s.station.now ∧ (s.act spawns).downSince =
        s.downSince := by
      rw [Parting.act, htodo]
      exact ⟨(perform_same s.station spawns _).2, rfl⟩
    exact h.todo address linkId hmem (hdown.of_later hnow.1.ge (hnow.2 ▸ List.Subset.refl _))
  | allow queued linkId dialable spawns =>
    obtain ⟨rfl, hslot⟩ := hdials
    have hwelcome := not_down_welcome (s := s.welcome queued) address
    simp only [Parting.step] at hdown
    split_ifs at hdown
    · exact hwelcome hdown
    · refine hwelcome (hdown.of_later ?_ (List.Subset.refl _))
      exact (launchChild_same _ _ spawns).2.ge
  | _ => exact hdials

end Parting

/-- **Disconnect**. Along every run of Disconnects, polls, connections and allowed links whose steps
are guarded, nothing is dialled back to a host that a Disconnect has hung up in the last 30 seconds,
and every link on a new epoch is dialled back by the first poll that may do so, exactly if the polls
have an answer to every such link. -/
theorem stays_down_comes_up_iff (mode : Mode) (peerAt : String → String) (ops : List Parting.Op)
    (h : Trace.Each (fun m op => (Parting.after mode peerAt m).Guarded op) ops) :
    Trace.Each (fun m op => (Parting.after mode peerAt m).StaysDown op ∧
        (Parting.after mode peerAt m).ComesUp op) ops ↔
      Trace.Each (fun m op => (Parting.after mode peerAt m).AnswersFresh op) ops := by
  have hkept : ∀ m op, m ++ [op] <+: ops → (Parting.after mode peerAt m).Kept := by
    intro m op hm
    refine Trace.invariant (I := fun _ (s : Parting) => s.Kept) (Parting.kept_init mode peerAt) ?_
      (h.earlier hm)
    exact fun m op hs hop => hs.step hop
  constructor
  · intro hkeeps m op hm
    exact (Parting.comesUp_iff _ op).mp (hkeeps m op hm).2
  · intro hanswers m op hm
    exact ⟨(hkept m op hm).staysDown op, (Parting.comesUp_iff _ op).mpr (hanswers m op hm)⟩

namespace Parting

/-- The office, whose user connected here. -/
def office (linkId : UInt64) : LinkView :=
  ⟨String.ofList (List.replicate 64 'b'), "office", "192.168.1.7:42110", some linkId⟩

/-- A child to the desk and its link are hung up; then the office connects. -/
def hangUpThenOffice : List Op :=
  [.launch "192.168.1.3" (some 9) true true, .disconnect, .hangUp 0 true [], .hangUp 0 true [],
    .hangUp 0 true [], .hangUp 0 true [], .station (.registerInboundLink (office 12)),
    .station (.fetch [⟨0, office 12⟩] [⟨office 12, 0⟩]), .follow, .act true, .act true]

/-- The link of the office is hung up. A poll that had seen it before finds a child to the desk. -/
def hangUpThenDesk : List Op :=
  [.station (.registerInboundLink (office 3)),
    .station (.fetch [⟨0, office 3⟩] [⟨office 3, 0⟩]), .disconnect, .hangUp 0 true [],
    .hangUp 0 true [⟨0, office 3⟩], .hangUp 0 true [], .hangUp 0 true [],
    .startSession "192.168.1.3" true, .launch "192.168.1.3" (some 12) true true, .follow,
    .act true, .act true, .act true]

/-- The link of the office is hung up. Ten seconds later it connects on a new epoch, and the user
allows it; but the child exits. -/
def hangUpThenOfficeAgain : List Op :=
  [.station (.registerInboundLink (office 3)), .disconnect, .hangUp 0 true [],
    .hangUp 0 true [⟨0, office 3⟩], .hangUp 0 true [], .hangUp 0 true [],
    .station (.removeInboundLink (office 3).fingerprintHex 0), .station (.pass 10000),
    .station (.registerInboundLink (office 20)),
    .allow "192.168.1.7:50000" 20 (some "192.168.1.7:42110") true, .station .exit, .station .reap,
    .station (.fetch [⟨1, office 20⟩] [⟨office 20, 10000⟩]), .follow]

end Parting

/-- The new link of the office is dialled back. -/
theorem office_stays_down_comes_up : Trace.Each (fun m op =>
    (Parting.after .bidirectional id m).StaysDown op ∧
      (Parting.after .bidirectional id m).ComesUp op) Parting.hangUpThenOffice := by
  have hmarked : ∀ m, (Parting.after .bidirectional id m).todo = [] →
      (Parting.after .bidirectional id m).station.tombstones.lookup "192.168.1.3" = some 0 →
      ∀ link ∈ [("192.168.1.3", some (9 : UInt64))], link.1 ∉ ([] : List String) →
        Parting.Marked (Parting.after .bidirectional id m).station link.1 0 ∧
          ∀ address linkId, .dialBack address linkId ∈ (Parting.after .bidirectional id m).todo →
            Station.tombstoneKey address ≠ link.1 := by
    intro m htodo htombstone link hlink _
    obtain rfl := List.mem_singleton.mp hlink
    refine ⟨⟨0, htombstone, Nat.le_refl _⟩, fun _ _ hmem => ?_⟩
    rw [htodo] at hmem
    cases hmem
  have hslot : (Parting.after .bidirectional id (Parting.hangUpThenOffice.take 8)).station.slot =
      none := by decide +kernel
  refine (stays_down_comes_up_iff .bidirectional id Parting.hangUpThenOffice ?_).mpr ?_
  · refine Trace.each_iff_getElem.mpr fun i => ?_
    match i with
    | ⟨2, _⟩ => exact fun _ _ hlink => by cases hlink
    | ⟨3, _⟩ =>
      intro _ link hlink
      have hends : (Parting.after .bidirectional id (Parting.hangUpThenOffice.take 3)).ends true
          (.disconnectLink none "192.168.1.3" (some 9)) = [("192.168.1.3", some 9)] := by
        decide +kernel
      exact hmarked (Parting.hangUpThenOffice.take 3) (by decide +kernel) (by decide +kernel) link
        (hends ▸ hlink)
    | ⟨4, _⟩ =>
      intro _ link hlink
      have hends : (Parting.after .bidirectional id (Parting.hangUpThenOffice.take 4)).ends true
          .stopSession = [("192.168.1.3", some 9)] := by
        decide +kernel
      exact hmarked (Parting.hangUpThenOffice.take 4) (by decide +kernel) (by decide +kernel) link
        (hends ▸ hlink)
    | ⟨5, _⟩ => exact fun _ _ hlink => by cases hlink
    | ⟨8, _⟩ =>
      intro status child link _ hchild
      cases hslot.symm.trans hchild
    | ⟨0, _⟩ | ⟨1, _⟩ | ⟨6, _⟩ | ⟨7, _⟩ | ⟨9, _⟩ | ⟨10, _⟩ => exact trivial
  · refine Trace.each_iff_getElem.mpr fun i => ?_
    match i with
    | ⟨8, _⟩ =>
      intro status hstatus link hlink _
      have hfetched : (Parting.after .bidirectional id
          (Parting.hangUpThenOffice.take 8)).station.fetched =
            some ⟨.bidirectional, [Parting.office 12], [⟨Parting.office 12, 0⟩]⟩ := by rfl
      obtain rfl := Option.some.inj (hfetched.symm.trans hstatus)
      obtain rfl := List.mem_singleton.mp hlink
      refine ⟨Parting.office 12, rfl, rfl, rfl, ?_⟩
      dsimp only [List.take]
      rw [hslot]
      exact ⟨by decide +kernel, by decide +kernel⟩
    | ⟨0, _⟩ | ⟨1, _⟩ | ⟨2, _⟩ | ⟨3, _⟩ | ⟨4, _⟩ | ⟨5, _⟩ | ⟨6, _⟩ | ⟨7, _⟩ | ⟨9, _⟩
    | ⟨10, _⟩ => exact trivial

/-- The office is dialled back at once, for the epoch of the child to the desk is higher; and where
it has connected again, it is not. -/
theorem office_dialled_back_or_not :
    (¬Trace.Each (fun m op => (Parting.after .bidirectional id m).StaysDown op ∧
      (Parting.after .bidirectional id m).ComesUp op) Parting.hangUpThenDesk) ∧
    ¬Trace.Each (fun m op => (Parting.after .bidirectional id m).StaysDown op ∧
      (Parting.after .bidirectional id m).ComesUp op) Parting.hangUpThenOfficeAgain := by
  constructor
  · intro h
    obtain ⟨hdown, -⟩ := Trace.each_iff_getElem.mp h ⟨12, by decide⟩
    refine hdown "192.168.1.7:42110" ⟨some 3, [], by decide +kernel⟩ ⟨0, ?_, ?_⟩
    · decide +kernel
    · decide +kernel
  · intro h
    obtain ⟨-, hup⟩ := Trace.each_iff_getElem.mp h ⟨13, by decide⟩
    have hdialled := hup ⟨.bidirectional, [Parting.office 20], [⟨Parting.office 20, 0⟩]⟩ (by rfl)
      (Parting.office 20) List.mem_cons_self
      ⟨by decide +kernel, by decide +kernel, by decide +kernel⟩
    exact absurd hdialled (by decide +kernel)

end TheKvm

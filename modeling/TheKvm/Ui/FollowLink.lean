import TheKvm.Daemon.InboundLinks
import TheKvm.Lib.Text
import TheKvm.Lib.Expiring
import TheKvm.Ui.SessionSlot

/-!
Link following: what a poll does about the inbound links of a status.

`followLink` is a function of the status, the supervised child and what the polls before it
left; a station is the computer around it, whose user and child act between the polls.
-/

namespace TheKvm

/-- The supervised child as a poll finds it, and the computer it dials. -/
structure DialChild where
  plan : LinkPlan
  peer : String
  /-- `try_wait` is `Ok(None)`. -/
  alive : Bool
  deriving DecidableEq

/-- What the polls remember. -/
structure Following where
  lastInbound : Option (String × Option UInt64)
  lastAttempt : Option Instant
  lastLinkSeen : Option Instant
  deriving DecidableEq

/-- What a poll does. -/
inductive FollowEffect
  | announce (link : LinkView) (oneWay : Bool)
  | blank
  | endLink (linkId : UInt64)
  | stopSession
  | dialBack (address : String) (linkId : Option UInt64)
  deriving DecidableEq

namespace FollowLink

def recentFallbackMaxSecs : ℕ := 300
def blankAfterMs : ℕ := 45 * 1000
def dialBackRetryMs : ℕ := 30 * 1000

def shouldDialBack (mode : Mode) (ceremonyOpen : Bool) : Bool :=
  mode ≠ .clientOnly && !ceremonyOpen

def keepLiveEpoch (liveEpoch inboundEpoch : UInt64) : Bool := liveEpoch < inboundEpoch

/-- The youngest remembered link that still arms the dial-back. -/
def recentLink (status : LinkStatus) : Option LinkView :=
  (status.recentInbound.find? fun recent => recent.lastSeenSecsAgo ≤ recentFallbackMaxSecs).map
    (·.link)

/-- A live link before a remembered one. -/
def inboundLink (status : LinkStatus) : Option LinkView :=
  status.sessions.head?.or (recentLink status)

def inboundId (inbound : Option LinkView) : Option (String × Option UInt64) :=
  inbound.map fun link => (link.fingerprintHex, link.linkId)

/-- What a poll shows while no child is supervised. -/
def display (mode : Mode) (previous : Option (String × Option UInt64)) (inbound : Option LinkView)
    (lastLinkSeen : Option Instant) (now : Instant) : List FollowEffect :=
  match previous, inbound with
  | old, some link =>
    if old ≠ some (link.fingerprintHex, link.linkId) then [.announce link (mode = .clientOnly)]
    else []
  | some _, none => if lastLinkSeen.all fun seen => blankAfterMs < now - seen then [.blank] else []
  | none, none => []

/-- The epoch of a live child that wins over the inbound one. -/
def oursLower (slot : Option DialChild) (newId : UInt64) : Option UInt64 :=
  match slot with
  | some child =>
    match child.plan.linkId, child.alive with
    | some old, true =>
      if old = newId then none else if keepLiveEpoch old newId then some old else none
    | _, _ => none
  | none => none

def sameEpoch (slot : Option DialChild) (newId : UInt64) : Bool :=
  match slot with
  | some child => child.plan.linkId = some newId
  | none => false

/-- The epoch of a child that is to be replaced, if it has one. -/
def staleEpoch (slot : Option DialChild) (newId : UInt64) : Option (Option UInt64) :=
  match slot with
  | some child =>
    match child.plan.linkId with
    | some old => if old ≠ newId then some (some old) else none
    | none => some none
  | none => none

/-- Re-epoch adoption. -/
def adopt (slot : Option DialChild) (link : LinkView) (newId : UInt64) : List FollowEffect :=
  match oursLower slot newId with
  | some _ => []
  | none =>
    if sameEpoch slot newId then []
    else
      match staleEpoch slot newId with
      | none => []
      | some old =>
        (match old with
          | some oldId => [.endLink oldId]
          | none => []) ++ [.stopSession, .dialBack link.address (some newId)]

/-- The adoption of a poll. -/
def adoption (mode : Mode) (ceremonyOpen : Bool) (slot : Option DialChild)
    (inbound : Option LinkView) : List FollowEffect :=
  if shouldDialBack mode ceremonyOpen then
    match inbound with
    | some link =>
      match link.linkId with
      | some newId => adopt slot link newId
      | none => []
    | none => []
  else []

def isFreshLink (previous : Option (String × Option UInt64)) (link : LinkView) : Bool :=
  match previous with
  | none => true
  | some (oldFp, oldId) => oldFp ≠ link.fingerprintHex || oldId ≠ link.linkId

/-- A fresh link, or a retry that is due. -/
def dialBackDue (previous : Option (String × Option UInt64)) (lastAttempt : Option Instant)
    (link : LinkView) (now : Instant) : Bool :=
  isFreshLink previous link || lastAttempt.all fun last => dialBackRetryMs ≤ now - last

/-- `follow_link`: what the polls remember from now on, and what this one does. -/
def followLink (status : LinkStatus) (slot : Option DialChild) (ceremonyOpen : Bool)
    (dialbackSuppressed : String → Bool) (now : Instant) (m : Following) :
    Following × List FollowEffect :=
  let outboundRunning := slot.isSome
  let inbound := inboundLink status
  let previous := m.lastInbound
  let lastLinkSeen := if inbound.isSome || outboundRunning then some now else m.lastLinkSeen
  -- with no link in either direction the next one is never a retry
  let lastAttempt := if inbound.isNone && !outboundRunning then none else m.lastAttempt
  let shown :=
    if outboundRunning then [] else display status.mode previous inbound lastLinkSeen now
  let adopted := adoption status.mode ceremonyOpen slot inbound
  let lastAttempt := if adopted ≠ [] then some now else lastAttempt
  let m : Following := ⟨inboundId inbound, lastAttempt, lastLinkSeen⟩
  match inbound with
  | some link =>
    if !outboundRunning && shouldDialBack status.mode ceremonyOpen &&
        dialBackDue previous lastAttempt link now then
      ({ m with lastAttempt := some now }, shown ++ adopted ++
        if dialbackSuppressed link.address then [] else [.dialBack link.address link.linkId])
    else (m, shown ++ adopted)
  | none => (m, shown ++ adopted)

end FollowLink

/-! ### A station -/

/-- A computer: its daemon, and the UI with its child. -/
structure Station where
  now : Instant
  mode : Mode
  inbound : InboundLinks
  ended : EndedLinks
  /-- which computer answers at an address -/
  peerAt : String → String
  slot : Option DialChild
  /-- the epochs children were launched with -/
  dialled : List (Option UInt64)
  ceremonyOpen : Bool
  tombstones : Expiring String
  following : Following
  /-- the status a poll has read and not followed yet -/
  fetched : Option LinkStatus

namespace Station

open FollowLink

/-- What the daemon, the child, the user and the polls do. A poll first fetches a status, of an
order in which the maps of the daemon are iterated, and then follows it. -/
inductive Op
  | pass (ms : ℕ)
  | setMode (mode : Mode)
  | setCeremony (ceremonyOpen : Bool)
  | readdress (address peer : String)
  | registerInboundLink (link : LinkView)
  | removeInboundLink (fingerprintHex : String) (id : ℕ)
  | endLink (linkId : UInt64)
  | peerEndLink (linkId : UInt64)
  | launchChild (plan : LinkPlan) (spawns : Bool)
  | stopSession
  | exit
  | reap
  | tombstoneDialback (address : String)
  | clearDialbackTombstone (address : String)
  | forgetInbound
  | fetch (live : List LiveLink) (seen : List RecentInboundRecord)
  | follow (spawns : Bool)

def init (mode : Mode) (peerAt : String → String) : Station :=
  ⟨0, mode, .empty, .fresh, peerAt, none, [], false, ∅, ⟨none, none, none⟩, none⟩

def tombstoneMs : ℕ := 30 * 1000

/-- The host part of an address. -/
def dialbackHost (address : String) : String :=
  let trimmed := Text.trim address
  if trimmed.toList.count ':' = 1 then String.ofList (trimmed.toList.takeWhile (· ≠ ':'))
  else trimmed

def tombstoneKey (address : String) : String := Text.toAsciiLowercase (dialbackHost address)

def tombstoneDialback (s : Station) (address : String) : Station :=
  let key := tombstoneKey address
  if key.isEmpty then s
  else { s with tombstones := (s.tombstones.young tombstoneMs s.now).insert key s.now }

def clearDialbackTombstone (s : Station) (address : String) : Station :=
  { s with tombstones := s.tombstones.erase (tombstoneKey address) }

def dialbackSuppressed (s : Station) (address : String) : Bool :=
  ((s.tombstones.young tombstoneMs s.now).lookup (tombstoneKey address)).isSome

/-- A child that runs is stopped first; then one is spawned, or there is no daemon to spawn. -/
def launchChild (s : Station) (plan : LinkPlan) (spawns : Bool) : Station :=
  if spawns then
    { s with
      slot := some ⟨plan, s.peerAt plan.address, true⟩
      dialled := s.dialled ++ [plan.linkId] }
  else { s with slot := none }

/-- What an effect of a poll does to the station; the display is not part of it. -/
def perform (spawns : Bool) (s : Station) : FollowEffect → Station
  | .announce _ _ => s
  | .blank => s
  | .endLink linkId => { s with ended := s.ended.endLink linkId }
  | .stopSession => { s with slot := none }
  | .dialBack address linkId => s.launchChild ⟨address, true, linkId⟩ spawns

/-- What following a status comes to. -/
def followed (s : Station) (status : LinkStatus) : Following × List FollowEffect :=
  followLink status s.slot s.ceremonyOpen s.dialbackSuppressed s.now s.following

def follow (s : Station) (spawns : Bool) : Station :=
  match s.fetched with
  | some status =>
    let (following, effects) := s.followed status
    effects.foldl (perform spawns) { s with following, fetched := none }
  | none => s

/-- `try_wait` says that the child has exited. -/
def reap (s : Station) : Station :=
  match s.slot with
  | some child => if child.alive then s else { s with slot := none }
  | none => s

/-- A status cannot be fetched in other orders than the maps have. -/
def fetch (s : Station) (live : List LiveLink) (seen : List RecentInboundRecord) : Station :=
  if s.inbound.Iterates live seen then
    { s with fetched := some (InboundLinks.status s.now s.mode s.ended live seen) }
  else s

def step (s : Station) : Op → Station
  | .pass ms => { s with now := s.now + ms }
  | .setMode mode => { s with mode }
  | .setCeremony ceremonyOpen => { s with ceremonyOpen }
  | .readdress address peer => { s with peerAt := Function.update s.peerAt address peer }
  | .registerInboundLink link => { s with inbound := s.inbound.registerInboundLink s.now link }
  | .removeInboundLink fingerprintHex id =>
    { s with inbound := s.inbound.removeInboundLink fingerprintHex id }
  | .endLink linkId => { s with ended := s.ended.endLink linkId }
  | .peerEndLink linkId => { s with ended := s.ended.peerEndLink linkId }
  | .launchChild plan spawns => s.launchChild plan spawns
  | .stopSession => { s with slot := none }
  | .exit => { s with slot := s.slot.map fun child => { child with alive := false } }
  | .reap => s.reap
  | .tombstoneDialback address => s.tombstoneDialback address
  | .clearDialbackTombstone address => s.clearDialbackTombstone address
  | .forgetInbound => { s with following := { s.following with lastInbound := none } }
  | .fetch live seen => s.fetch live seen
  | .follow spawns => s.follow spawns

/-- The station behind the steps of a run. -/
abbrev after (mode : Mode) (peerAt : String → String) (ops : List Op) : Station :=
  Trace.final (fun s op => (s.step op, ())) (init mode peerAt) ops

end Station

/-! ### What adoption does -/

namespace FollowLink

/-- A link is no reason for a child to go: it has no epoch, the child's own, or one that the
child, while it runs, wins over. -/
def Stays (child : DialChild) (linkId : Option UInt64) : Prop :=
  ∀ newId, linkId = some newId →
    ∃ old, child.plan.linkId = some old ∧ (old = newId ∨ child.alive = true ∧ old < newId)

/-- The ban of the epoch of a child, if it has one. -/
def bans (child : DialChild) : List FollowEffect :=
  (child.plan.linkId.map FollowEffect.endLink).toList

variable {child : DialChild} {link : LinkView} {newId : UInt64} {mode : Mode}
  {ceremonyOpen : Bool}

@[simp] lemma mem_bans {linkId : UInt64} :
    FollowEffect.endLink linkId ∈ bans child ↔ child.plan.linkId = some linkId := by
  simp [bans]

lemma adopt_of_stays (h : Stays child (some newId)) : adopt (some child) link newId = [] := by
  obtain ⟨old, hold, heq | ⟨halive, hlt⟩⟩ := h newId rfl
  · subst heq
    have hlower : oursLower (some child) old = none := by
      unfold oursLower
      dsimp only
      rw [hold]
      cases child.alive <;> simp
    have hsame : sameEpoch (some child) old = true := decide_eq_true hold
    rw [adopt, hlower]
    dsimp only
    rw [if_pos hsame]
  · have hlower : oursLower (some child) newId = some old := by
      unfold oursLower
      dsimp only
      rw [hold, halive]
      dsimp only
      have hkeep : keepLiveEpoch old newId = true := decide_eq_true hlt
      rw [if_neg (UInt64.ne_of_lt hlt), if_pos hkeep]
    rw [adopt, hlower]

lemma adopt_of_not_stays (h : ¬Stays child (some newId)) : adopt (some child) link newId =
    bans child ++ [.stopSession, .dialBack link.address (some newId)] := by
  have hgoes : ∀ old, child.plan.linkId = some old →
      old ≠ newId ∧ ¬(child.alive = true ∧ old < newId) := by
    intro old hold
    constructor
    · rintro rfl
      exact h fun _ heq => ⟨old, hold, Or.inl (Option.some.inj heq)⟩
    · intro hlower
      refine h fun _ heq => ⟨old, hold, Or.inr ?_⟩
      obtain rfl := Option.some.inj heq
      exact hlower
  cases hold : child.plan.linkId with
  | none => simp [adopt, oursLower, sameEpoch, staleEpoch, bans, hold]
  | some old =>
    obtain ⟨hne, hnlt⟩ := hgoes old hold
    have hlower : oursLower (some child) newId = none := by
      unfold oursLower
      dsimp only
      rw [hold]
      cases halive : child.alive with
      | false => rfl
      | true =>
        have hnkeep : keepLiveEpoch old newId = false :=
          decide_eq_false fun hlt => hnlt ⟨halive, hlt⟩
        dsimp only
        rw [if_neg hne, hnkeep]
        rfl
    simp [adopt, hlower, sameEpoch, staleEpoch, bans, hold, hne]

/-- A poll that finds a child and may dial goes by the epoch of the inbound link. -/
lemma adoption_some (child : DialChild) (hdrive : shouldDialBack mode ceremonyOpen = true)
    (inbound : LinkView) :
    (Stays child inbound.linkId ∧ adoption mode ceremonyOpen (some child) (some inbound) = []) ∨
      ∃ newId, inbound.linkId = some newId ∧ ¬Stays child (some newId) ∧
        adoption mode ceremonyOpen (some child) (some inbound) =
          bans child ++ [.stopSession, .dialBack inbound.address (some newId)] := by
  unfold adoption
  rw [if_pos hdrive]
  dsimp only
  cases hid : inbound.linkId with
  | none => exact Or.inl ⟨(fun _ h => by cases h), rfl⟩
  | some newId =>
    by_cases hstays : Stays child (some newId)
    · exact Or.inl ⟨hstays, adopt_of_stays hstays⟩
    · exact Or.inr ⟨newId, rfl, hstays, adopt_of_not_stays hstays⟩

lemma adoption_of_not_drive (hdrive : shouldDialBack mode ceremonyOpen = false)
    (slot : Option DialChild) (inbound : Option LinkView) :
    adoption mode ceremonyOpen slot inbound = [] := by
  unfold adoption
  rw [hdrive]
  exact if_neg Bool.false_ne_true

lemma adoption_none (inbound : Option LinkView) : adoption mode ceremonyOpen none inbound = [] := by
  unfold adoption
  split_ifs
  · split
    · split <;> rfl
    · rfl
  · rfl

end FollowLink

namespace Station

open FollowLink

variable {s : Station} {status : LinkStatus} {child : DialChild}

/-- The poll may dial, and goes by a link that is a reason for the child to go. -/
def Leaves (s : Station) (status : LinkStatus) (child : DialChild) : Prop :=
  shouldDialBack status.mode s.ceremonyOpen = true ∧
    ∃ link, inboundLink status = some link ∧ ¬Stays child link.linkId

/-- A poll that finds a child does no more than adopt. -/
lemma followed_some (status : LinkStatus) (hslot : s.slot = some child) :
    ((s.followed status).2 = [] ∧ ¬s.Leaves status child) ∨
      ∃ link newId, inboundLink status = some link ∧ link.linkId = some newId ∧
        s.Leaves status child ∧ child.plan.linkId ≠ some newId ∧
          (s.followed status).2 =
            bans child ++ [.stopSession, .dialBack link.address (some newId)] := by
  have heffects : (s.followed status).2 =
      adoption status.mode s.ceremonyOpen (some child) (inboundLink status) := by
    unfold followed followLink
    rw [hslot]
    dsimp only
    split <;> simp
  unfold Leaves
  cases hdrive : shouldDialBack status.mode s.ceremonyOpen with
  | false =>
    rw [adoption_of_not_drive hdrive] at heffects
    exact Or.inl ⟨heffects, by simp⟩
  | true =>
    cases hlink : inboundLink status with
    | none =>
      rw [hlink, adoption, if_pos hdrive] at heffects
      exact Or.inl ⟨heffects, by simp⟩
    | some link =>
      rw [hlink] at heffects
      rcases adoption_some child hdrive link with
        ⟨hstays, hnil⟩ | ⟨newId, hid, hgoes, hadopt⟩
      · refine Or.inl ⟨heffects.trans hnil, ?_⟩
        rintro ⟨-, _, heq, hgoes⟩
        obtain rfl := Option.some.inj heq
        exact hgoes hstays
      · have hne : child.plan.linkId ≠ some newId := fun heq =>
          hgoes fun _ h => ⟨newId, heq, Or.inl (Option.some.inj h)⟩
        exact Or.inr ⟨link, newId, rfl, hid, ⟨rfl, link, rfl, hid ▸ hgoes⟩, hne,
          heffects.trans hadopt⟩

/-! ### Whom a poll leaves its child for -/

/-- Following the status stops the child, or bans its epoch. -/
def Takes (s : Station) (status : LinkStatus) (spawns : Bool) (child : DialChild) : Prop :=
  (s.follow spawns).slot ≠ some child ∨
    ∃ linkId, child.plan.linkId = some linkId ∧ .endLink linkId ∈ (s.followed status).2

/-- A poll stops a running child, or bans its epoch, only for a live link of the computer that
the child dials. -/
def YieldsToOwn (s : Station) : Op → Prop
  | .follow spawns => ∀ status child, s.fetched = some status → s.slot = some child →
      child.alive = true → s.Takes status spawns child →
        ∃ link ∈ status.sessions, inboundLink status = some link ∧
          link.fingerprintHex = child.peer
  | _ => True

/-- While a child runs and the station may dial, the session listed first is of the computer the
child dials, or is no reason for the child to go; and if none is listed, neither is the youngest
remembered link. -/
def OwnLinkFirst (s : Station) : Op → Prop
  | .follow _ => ∀ status child, s.fetched = some status → s.slot = some child →
      child.alive = true → shouldDialBack status.mode s.ceremonyOpen = true →
        (∀ link, status.sessions.head? = some link →
          link.fingerprintHex = child.peer ∨ Stays child link.linkId) ∧
        (status.sessions = [] → ∀ link, recentLink status = some link → Stays child link.linkId)
  | _ => True

lemma follow_slot_of_nil {spawns : Bool} (hfetched : s.fetched = some status)
    (h : (s.followed status).2 = []) : (s.follow spawns).slot = s.slot := by
  unfold follow
  rw [hfetched]
  dsimp only
  rw [h]
  rfl

/-- The child of an adoption has another epoch than the one before it. -/
lemma follow_slot_of_adopt {spawns : Bool} {address : String} {newId : UInt64}
    (hfetched : s.fetched = some status) (hne : child.plan.linkId ≠ some newId)
    (h : (s.followed status).2 = bans child ++ [.stopSession, .dialBack address (some newId)]) :
    (s.follow spawns).slot ≠ some child := by
  have hslot : ∀ s' : Station, (List.foldl (perform spawns) s'
      [.stopSession, .dialBack address (some newId)]).slot ≠ some child := by
    intro s' heq
    simp only [List.foldl_cons, List.foldl_nil, perform, launchChild] at heq
    split_ifs at heq
    obtain rfl := Option.some.inj heq
    exact hne rfl
  unfold follow
  rw [hfetched]
  dsimp only
  rw [h, List.foldl_append]
  exact hslot _

lemma takes_iff {spawns : Bool} (hfetched : s.fetched = some status)
    (hslot : s.slot = some child) : s.Takes status spawns child ↔ s.Leaves status child := by
  rcases followed_some status hslot with
    ⟨hnil, hstays⟩ | ⟨link, newId, -, -, hleaves, hne, hadopt⟩
  · refine iff_of_false ?_ hstays
    rintro (hgone | ⟨linkId, -, hban⟩)
    · exact hgone (by rw [follow_slot_of_nil hfetched hnil, hslot])
    · rw [hnil] at hban
      cases hban
  · exact iff_of_true (Or.inl (follow_slot_of_adopt hfetched hne hadopt)) hleaves

/-- The link of a poll is the session listed first, or with none listed a remembered one. -/
lemma inboundLink_cases (status : LinkStatus) :
    (∃ link, status.sessions.head? = some link ∧ link ∈ status.sessions ∧
      inboundLink status = some link) ∨
      status.sessions = [] ∧ inboundLink status = recentLink status := by
  unfold inboundLink
  cases hsessions : status.sessions with
  | nil => exact Or.inr ⟨rfl, rfl⟩
  | cons link rest => exact Or.inl ⟨link, rfl, List.mem_cons_self, rfl⟩

lemma yieldsToOwn_iff (s : Station) (op : Op) : s.YieldsToOwn op ↔ s.OwnLinkFirst op := by
  cases op with
  | follow spawns =>
    refine forall_congr' fun status => forall_congr' fun child => forall_congr' fun hfetched =>
      forall_congr' fun hslot => forall_congr' fun _ => ?_
    rw [takes_iff hfetched hslot, Leaves, and_imp]
    refine forall_congr' fun _ => ?_
    rcases inboundLink_cases status with ⟨first, hhead, hmem, hlink⟩ | ⟨hnil, hlink⟩
    · rw [hlink, hhead]
      constructor
      · intro h
        refine ⟨fun link heq => ?_, fun hnil => by rw [hnil] at hmem; cases hmem⟩
        obtain rfl := Option.some.inj heq
        by_cases hstays : Stays child first.linkId
        · exact Or.inr hstays
        · obtain ⟨_, -, heq, hpeer⟩ := h ⟨first, rfl, hstays⟩
          obtain rfl := Option.some.inj heq
          exact Or.inl hpeer
      · rintro ⟨h, -⟩ ⟨_, heq, hgoes⟩
        obtain rfl := Option.some.inj heq
        exact ⟨first, hmem, rfl, (h first rfl).resolve_right hgoes⟩
    · rw [hlink, hnil]
      constructor
      · intro h
        refine ⟨(fun _ hhead => by cases hhead), fun _ link hrecent => ?_⟩
        by_contra hgoes
        obtain ⟨_, hmem, -⟩ := h ⟨link, hrecent, hgoes⟩
        cases hmem
      · rintro ⟨-, h⟩ ⟨link, hrecent, hgoes⟩
        exact absurd (h rfl link hrecent) hgoes
  | _ => exact Iff.rfl

/-- **A running child is left for a live link of its own computer only, exactly in the runs whose
polls find such a link first, or none to leave it for.** -/
theorem yieldsToOwn_iff_ownLinkFirst (mode : Mode) (peerAt : String → String) (ops : List Op) :
    Trace.Each (fun m op => (after mode peerAt m).YieldsToOwn op) ops ↔
      Trace.Each (fun m op => (after mode peerAt m).OwnLinkFirst op) ops :=
  Trace.each_congr fun _ op _ => yieldsToOwn_iff _ op

/-- A user connects to one computer, and remembered is a link of another that is over and had a
lower epoch. -/
def forgottenLink : List Op :=
  [.launchChild ⟨"b", false, some 9⟩ true, .registerInboundLink ⟨"cc", "c", "c", some 3⟩,
    .removeInboundLink "cc" 0, .fetch [] [⟨⟨"cc", "c", "c", some 3⟩, 0⟩], .follow true]

/-- The poll stops the child, and bans its epoch. -/
theorem left_for_ended_link : ¬∀ (mode : Mode) (peerAt : String → String) (ops : List Op),
    Trace.Each (fun m op => (after mode peerAt m).YieldsToOwn op) ops := by
  intro h
  have hlast := h .bidirectional (fun _ => "bb") forgottenLink (forgottenLink.take 4)
    (.follow true) (by rfl) ⟨.bidirectional, [], [⟨⟨"cc", "c", "c", some 3⟩, 0⟩]⟩
    ⟨⟨"b", false, some 9⟩, "bb", true⟩ (by rfl) (by rfl) rfl
    (Or.inr ⟨9, rfl, by decide⟩)
  obtain ⟨link, hmem, -⟩ := hlast
  cases hmem


/-! ### No poll makes an epoch -/

/-- The station may dial the link of the poll back, and it is time to. -/
def DialsBack (s : Station) (status : LinkStatus) (link : LinkView) : Prop :=
  shouldDialBack status.mode s.ceremonyOpen = true ∧
    dialBackDue s.following.lastInbound s.following.lastAttempt link s.now = true ∧
      s.dialbackSuppressed link.address = false

/-- Effects that only show something. -/
def Shows (effects : List FollowEffect) : Prop :=
  ∀ effect ∈ effects, effect = .blank ∨ ∃ link oneWay, effect = .announce link oneWay

lemma Shows.not_endLink {effects : List FollowEffect} (h : Shows effects) (linkId : UInt64) :
    .endLink linkId ∉ effects := by
  intro hmem
  rcases h _ hmem with heq | ⟨_, _, heq⟩ <;> cases heq

lemma Shows.not_dialBack {effects : List FollowEffect} (h : Shows effects) (address : String)
    (linkId : Option UInt64) : .dialBack address linkId ∉ effects := by
  intro hmem
  rcases h _ hmem with heq | ⟨_, _, heq⟩ <;> cases heq

lemma shows_display (mode : Mode) (previous : Option (String × Option UInt64))
    (inbound : Option LinkView) (lastLinkSeen : Option Instant) (now : Instant) :
    Shows (display mode previous inbound lastLinkSeen now) := by
  intro effect h
  unfold display at h
  split at h
  · split_ifs at h
    · exact Or.inr ⟨_, _, List.mem_singleton.mp h⟩
    · cases h
  · split_ifs at h
    · exact Or.inl (List.mem_singleton.mp h)
    · cases h
  · cases h

/-- A poll that finds no child shows what it sees, and dials the link it goes by if it is time
to. -/
lemma followed_none (status : LinkStatus) (hslot : s.slot = none) : ∃ shown, Shows shown ∧
    (((s.followed status).2 = shown ∧
        ∀ link, inboundLink status = some link → ¬s.DialsBack status link) ∨
      ∃ link, inboundLink status = some link ∧ s.DialsBack status link ∧
        (s.followed status).2 = shown ++ [.dialBack link.address link.linkId]) := by
  cases hlink : inboundLink status with
  | none =>
    refine ⟨_, shows_display status.mode s.following.lastInbound none s.following.lastLinkSeen
      s.now, Or.inl ⟨?_, fun _ h => by cases h⟩⟩
    unfold followed followLink
    simp only [hslot, hlink, adoption_none, List.append_nil]
    rfl
  | some link =>
    refine ⟨_, shows_display status.mode s.following.lastInbound (some link) (some s.now) s.now, ?_⟩
    by_cases hdials : s.DialsBack status link
    · refine Or.inr ⟨link, rfl, hdials, ?_⟩
      obtain ⟨hdrive, hdue, hopen⟩ := hdials
      unfold followed followLink
      simp [hslot, hlink, adoption_none, hdrive, hdue, hopen]
    · refine Or.inl ⟨?_, fun _ heq => Option.some.inj heq ▸ hdials⟩
      unfold DialsBack at hdials
      unfold followed followLink
      simp only [hslot, hlink, adoption_none]
      split_ifs <;> simp_all

/-- A poll that finds no child bans nothing. -/
lemma not_endLink_of_none (hslot : s.slot = none) (linkId : UInt64) :
    .endLink linkId ∉ (s.followed status).2 := by
  obtain ⟨shown, hshown, ⟨heq, -⟩ | ⟨link, -, -, heq⟩⟩ := followed_none status hslot
  · rw [heq]
    exact hshown.not_endLink linkId
  · rw [heq, List.mem_append, not_or]
    exact ⟨hshown.not_endLink linkId, by simp⟩

/-- A poll that finds no child dials the link it goes by, if it is time to. -/
lemma mem_dialBack_of_none (hslot : s.slot = none) {address : String} {linkId : Option UInt64} :
    .dialBack address linkId ∈ (s.followed status).2 ↔ ∃ link, inboundLink status = some link ∧
      s.DialsBack status link ∧ address = link.address ∧ linkId = link.linkId := by
  obtain ⟨shown, hshown, ⟨heq, hnot⟩ | ⟨link, hlink, hdials, heq⟩⟩ :=
    followed_none status hslot
  · rw [heq]
    refine iff_of_false (hshown.not_dialBack address linkId) ?_
    rintro ⟨link, hlink, hdials, -⟩
    exact hnot link hlink hdials
  · rw [heq, List.mem_append, or_iff_right (hshown.not_dialBack address linkId),
      List.mem_singleton, FollowEffect.dialBack.injEq]
    constructor
    · rintro ⟨haddress, hid⟩
      exact ⟨link, hlink, hdials, haddress, hid⟩
    · rintro ⟨_, hlink', -, haddress, hid⟩
      obtain rfl := Option.some.inj (hlink.symm.trans hlink')
      exact ⟨haddress, hid⟩

/-- A poll that finds a child bans the child's epoch, if it leaves the child. -/
lemma mem_endLink_of_some {linkId : UInt64} (hslot : s.slot = some child) :
    .endLink linkId ∈ (s.followed status).2 ↔
      child.plan.linkId = some linkId ∧ s.Leaves status child := by
  rcases followed_some status hslot with
    ⟨hnil, hstays⟩ | ⟨link, newId, -, -, hleaves, -, hadopt⟩
  · rw [hnil]
    exact iff_of_false (by simp) fun h => hstays h.2
  · rw [hadopt, and_iff_left hleaves]
    simp

/-- A poll that finds a child dials the link it goes by, if it leaves the child. -/
lemma mem_dialBack_of_some {address : String} {linkId : Option UInt64}
    (hslot : s.slot = some child) : .dialBack address linkId ∈ (s.followed status).2 ↔
      s.Leaves status child ∧ ∃ link, inboundLink status = some link ∧
        address = link.address ∧ linkId = link.linkId := by
  rcases followed_some status hslot with
    ⟨hnil, hstays⟩ | ⟨link, newId, hlink, hid, hleaves, -, hadopt⟩
  · rw [hnil]
    exact iff_of_false (by simp) fun h => hstays h.1
  · rw [hadopt, and_iff_right hleaves, hlink, ← hid]
    simp [bans]

/-! ### No poll makes an epoch -/

/-- The epoch a step brings to the station. -/
def Op.brings : Op → Option (Option UInt64)
  | .registerInboundLink link => some link.linkId
  | .launchChild plan _ => some plan.linkId
  | _ => none

/-- Every epoch at the station meets `P`. -/
structure Carries (P : Option UInt64 → Prop) (s : Station) : Prop where
  inbound : s.inbound.All fun link => P link.linkId
  fetched : ∀ status, s.fetched = some status →
    ∀ link, inboundLink status = some link → P link.linkId
  slot : ∀ child, s.slot = some child → P child.plan.linkId
  dialled : ∀ linkId ∈ s.dialled, P linkId

variable {P : Option UInt64 → Prop}

lemma carries_init (mode : Mode) (peerAt : String → String) : Carries P (init mode peerAt) where
  inbound := InboundLinks.all_empty
  fetched := fun _ h => by cases h
  slot := fun _ h => by cases h
  dialled := fun _ h => by cases h

/-- What a poll goes by is in the status. -/
lemma inboundLink_of_forall {Q : LinkView → Prop} (hlive : ∀ link ∈ status.sessions, Q link)
    (hrecent : ∀ recent ∈ status.recentInbound, Q recent.link) {link : LinkView}
    (h : inboundLink status = some link) : Q link := by
  rcases inboundLink_cases status with ⟨first, -, hmem, hfirst⟩ | ⟨-, hnone⟩
  · obtain rfl := Option.some.inj (hfirst.symm.trans h)
    exact hlive first hmem
  · rw [hnone] at h
    obtain ⟨recent, hfind, rfl⟩ := Option.map_eq_some_iff.mp h
    exact hrecent recent (List.mem_of_find?_eq_some hfind)

namespace Carries

lemma launchChild (h : Carries P s) {plan : LinkPlan} (hplan : P plan.linkId) (spawns : Bool) :
    Carries P (s.launchChild plan spawns) := by
  unfold Station.launchChild
  split_ifs
  · refine { h with slot := fun child heq => ?_, dialled := fun linkId hmem => ?_ }
    · obtain rfl := Option.some.inj heq
      exact hplan
    · rcases List.mem_append.mp hmem with hold | hnew
      · exact h.dialled linkId hold
      · obtain rfl := List.mem_singleton.mp hnew
        exact hplan
  · exact { h with slot := fun _ heq => by cases heq }

lemma perform (h : Carries P s) (spawns : Bool) {effect : FollowEffect}
    (heffect : ∀ address linkId, effect = .dialBack address linkId → P linkId) :
    Carries P (s.perform spawns effect) := by
  cases effect with
  | announce link oneWay => exact h
  | blank => exact h
  | endLink linkId => exact { h with }
  | stopSession => exact { h with slot := fun _ heq => by cases heq }
  | dialBack address linkId => exact h.launchChild (heffect address linkId rfl) spawns

/-- A poll dials on the epoch of a link of its status. -/
lemma of_dialBack (h : Carries P s) (hfetched : s.fetched = some status) {address : String}
    {linkId : Option UInt64} (hmem : .dialBack address linkId ∈ (s.followed status).2) :
    P linkId := by
  cases hslot : s.slot with
  | none =>
    obtain ⟨link, hlink, -, -, rfl⟩ := (mem_dialBack_of_none hslot).mp hmem
    exact h.fetched status hfetched link hlink
  | some child =>
    obtain ⟨-, link, hlink, -, rfl⟩ := (mem_dialBack_of_some hslot).mp hmem
    exact h.fetched status hfetched link hlink

lemma foldl_perform (h : Carries P s) (spawns : Bool) {effects : List FollowEffect}
    (heffects : ∀ address linkId, .dialBack address linkId ∈ effects → P linkId) :
    Carries P (effects.foldl (Station.perform spawns) s) := by
  induction effects generalizing s with
  | nil => exact h
  | cons effect effects ih =>
    refine ih (h.perform spawns fun address linkId heq => ?_) fun address linkId hmem => ?_
    · exact heffects address linkId (heq ▸ List.mem_cons_self)
    · exact heffects address linkId (List.mem_cons_of_mem _ hmem)

lemma follow (h : Carries P s) (spawns : Bool) : Carries P (s.follow spawns) := by
  unfold Station.follow
  split
  · rename_i status hfetched
    have hread : Carries P { s with following := (s.followed status).1, fetched := none } :=
      { h with fetched := fun _ heq => by cases heq }
    exact hread.foldl_perform spawns fun address linkId hmem => h.of_dialBack hfetched hmem
  · exact h

lemma fetch (h : Carries P s) (live : List LiveLink) (seen : List RecentInboundRecord) :
    Carries P (s.fetch live seen) := by
  unfold Station.fetch
  split_ifs with hiter
  · refine { h with fetched := fun status heq link hlink => ?_ }
    obtain rfl := Option.some.inj heq
    obtain ⟨hlive, hrecent⟩ := h.inbound.status hiter s.mode s.ended
    exact inboundLink_of_forall hlive hrecent hlink
  · exact h

/-- Only what a step brings is new. -/
lemma step (h : Carries P s) {op : Op} (hop : ∀ linkId, op.brings = some linkId → P linkId) :
    Carries P (s.step op) := by
  cases op with
  | registerInboundLink link =>
    exact { h with inbound := h.inbound.registerInboundLink (hop link.linkId rfl) }
  | removeInboundLink fingerprintHex id =>
    exact { h with inbound := h.inbound.removeInboundLink fingerprintHex id }
  | launchChild plan spawns => exact h.launchChild (hop plan.linkId rfl) spawns
  | stopSession => exact { h with slot := fun _ heq => by cases heq }
  | exit =>
    refine { h with slot := fun child heq => ?_ }
    obtain ⟨child, hchild, rfl⟩ := Option.map_eq_some_iff.mp heq
    exact h.slot child hchild
  | reap =>
    change Carries P s.reap
    unfold Station.reap
    split
    · split_ifs
      · exact h
      · exact { h with slot := fun _ heq => by cases heq }
    · exact h
  | fetch live seen => exact h.fetch live seen
  | follow spawns => exact h.follow spawns
  | tombstoneDialback address =>
    change Carries P (s.tombstoneDialback address)
    unfold Station.tombstoneDialback
    dsimp only
    split_ifs
    · exact h
    · exact { h with }
  | _ => exact { h with }

end Carries

end Station

end TheKvm

import TheKvm.Ui.FollowLink

/-!
Two computers whose users connect to each other at once.

Each launches a child on an epoch of its own; then both polls see two epochs, of which the lower
one is to win on both sides.
-/

namespace TheKvm

inductive Side
  | low | high
  deriving DecidableEq

def Side.other : Side → Side
  | .low => .high
  | .high => .low

/-- Two computers, both of which may drive, and the epochs their users mint. -/
structure Rivals where
  epoch : Side → UInt64
  lt : epoch .low < epoch .high
  mode : Side → Mode
  drives : ∀ side, mode side ≠ .clientOnly
  fingerprintHex : Side → String
  nodeName : Side → String
  address : Side → String

/-- Both stations, and which users have pressed Connect. -/
structure DoubleConnect where
  station : Side → Station
  pressed : Side → Bool

namespace DoubleConnect

open FollowLink

/-- A step of the pair: the user of a side presses Connect; the daemon of a side accepts the link
of a child of the other; or a side goes on by itself. -/
inductive Op
  | connect (side : Side) (spawns : Bool)
  | accept (side : Side) (linkId : UInt64)
  | act (side : Side) (op : Station.Op)

/-- What a station does while its user does nothing. -/
def quiet : Station.Op → Bool
  | .pass _ | .setCeremony _ | .removeInboundLink _ _ | .stopSession | .exit | .reap => true
  | .forgetInbound | .fetch _ _ | .follow _ => true
  | .setMode _ | .readdress _ _ | .registerInboundLink _ | .endLink _ | .peerEndLink _ => false
  | .launchChild _ _ | .tombstoneDialback _ | .clearDialbackTombstone _ => false

variable (r : Rivals)

def init : DoubleConnect where
  station side := Station.init (r.mode side) fun _ => r.fingerprintHex side.other
  pressed _ := false

def atSide (d : DoubleConnect) (side : Side) (op : Station.Op) : DoubleConnect :=
  { d with station := Function.update d.station side ((d.station side).step op) }

/-- The link of a side as the daemon of the other lists it. -/
def linkOf (side : Side) (linkId : UInt64) : LinkView :=
  ⟨r.fingerprintHex side, r.nodeName side, r.address side, some linkId⟩

/-- A daemon accepts epochs on which the other side has dialled, unless it has banned them. -/
def accepts (d : DoubleConnect) (side : Side) (linkId : UInt64) : Prop :=
  some linkId ∈ (d.station side.other).dialled ∧ (d.station side).ended.linkEnded linkId = false

instance (d : DoubleConnect) (side : Side) (linkId : UInt64) : Decidable (d.accepts side linkId) :=
  inferInstanceAs (Decidable (_ ∧ _))

/-- Each user connects once. -/
def step (d : DoubleConnect) : Op → DoubleConnect
  | .connect side spawns =>
    if d.pressed side then d
    else
      { d.atSide side (.launchChild ⟨r.address side.other, false, some (r.epoch side)⟩ spawns) with
        pressed := Function.update d.pressed side true }
  | .accept side linkId =>
    if d.accepts side linkId then d.atSide side (.registerInboundLink (linkOf r side.other linkId))
    else d
  | .act side op => if quiet op then d.atSide side op else d

/-- The pair behind the steps of a run. -/
abbrev after (ops : List Op) : DoubleConnect :=
  Trace.final (fun d op => (step r d op, ())) (init r) ops

/-- One of the two daemons has banned the epoch. -/
def Banned (d : DoubleConnect) (linkId : UInt64) : Prop :=
  ∃ side, linkId ∈ (d.station side).ended.ended

/-- A poll does not ban the lower epoch, and does not dial on the higher one after that was given
up. -/
def PollsRight (d : DoubleConnect) : Op → Prop
  | .act side (.follow _) => ∀ status, (d.station side).fetched = some status →
      .endLink (r.epoch .low) ∉ ((d.station side).followed status).2 ∧
        (d.Banned (r.epoch .high) → ∀ address,
          .dialBack address (some (r.epoch .high)) ∉ ((d.station side).followed status).2)
  | _ => True

/-- The two sides come to agree on the lower epoch. -/
structure Converges (ops : List Op) : Prop where
  polls : Trace.Each (fun m op => PollsRight r (after r m) op) ops
  notBoth : ∀ m, m <+: ops →
    ¬((after r m).Banned (r.epoch .low) ∧ (after r m).Banned (r.epoch .high))

/-- A poll that may dial and goes by a link on the higher epoch does not find an exited child on
the lower one, and if the higher one was given up it finds a child, or no dial due. -/
def Shielded (d : DoubleConnect) : Op → Prop
  | .act side (.follow _) => ∀ status link, (d.station side).fetched = some status →
      (d.station side).ceremonyOpen = false → inboundLink status = some link →
      link.linkId = some (r.epoch .high) →
        (∀ child, (d.station side).slot = some child → child.plan.linkId = some (r.epoch .low) →
          child.alive = true) ∧
        (d.Banned (r.epoch .high) → (d.station side).slot = none →
          dialBackDue (d.station side).following.lastInbound (d.station side).following.lastAttempt
            link (d.station side).now = false)
  | _ => True

/-! ### Stations left to themselves -/

/-- The station may drive, and has no tombstones. -/
structure Willing (s : Station) : Prop where
  mode : s.mode ≠ .clientOnly
  fetched : ∀ status, s.fetched = some status → status.mode ≠ .clientOnly
  tombstones : s.tombstones = ∅

variable {s : Station}

lemma Willing.launchChild (h : Willing s) (plan : LinkPlan) (spawns : Bool) :
    Willing (s.launchChild plan spawns) := by
  unfold Station.launchChild
  split_ifs
  · exact { h with }
  · exact { h with }

lemma Willing.perform (h : Willing s) (spawns : Bool) (effect : FollowEffect) :
    Willing (s.perform spawns effect) := by
  cases effect with
  | announce link oneWay => exact h
  | blank => exact h
  | endLink linkId => exact { h with }
  | stopSession => exact { h with }
  | dialBack address linkId => exact h.launchChild _ spawns

lemma Willing.foldl_perform (h : Willing s) (spawns : Bool) (effects : List FollowEffect) :
    Willing (effects.foldl (Station.perform spawns) s) := by
  induction effects generalizing s with
  | nil => exact h
  | cons effect effects ih => exact ih (h.perform spawns effect)

lemma Willing.follow (h : Willing s) (spawns : Bool) : Willing (s.follow spawns) := by
  unfold Station.follow
  split
  · rename_i status hfetched
    have hread : Willing { s with following := (s.followed status).1, fetched := none } :=
      { h with fetched := fun _ heq => by cases heq }
    exact hread.foldl_perform spawns _
  · exact h

lemma Willing.step (h : Willing s) {op : Station.Op}
    (hop : quiet op = true ∨ op.brings.isSome = true) : Willing (s.step op) := by
  cases op with
  | setMode mode => simp [quiet, Station.Op.brings] at hop
  | tombstoneDialback address => simp [quiet, Station.Op.brings] at hop
  | clearDialbackTombstone address => simp [quiet, Station.Op.brings] at hop
  | follow spawns => exact h.follow spawns
  | launchChild plan spawns => exact h.launchChild plan spawns
  | fetch live seen =>
    change Willing (s.fetch live seen)
    unfold Station.fetch
    split_ifs
    · refine { h with fetched := fun status heq => ?_ }
      obtain rfl := Option.some.inj heq
      exact h.mode
    · exact h
  | reap =>
    change Willing s.reap
    unfold Station.reap
    split
    · split_ifs
      · exact h
      · exact { h with }
    · exact h
  | _ => exact { h with }

/-! ### The two epochs -/

/-- The epoch is one of the two. -/
def IsRival (linkId : Option UInt64) : Prop :=
  linkId = some (r.epoch .low) ∨ linkId = some (r.epoch .high)

/-- Only the two epochs are about, and both sides may drive. -/
structure Known (d : DoubleConnect) : Prop where
  carries : ∀ side, (d.station side).Carries (IsRival r)
  willing : ∀ side, Willing (d.station side)

variable {r} {d : DoubleConnect}

lemma known_init : Known r (init r) where
  carries := fun _ => Station.carries_init _ _
  willing := fun side => ⟨r.drives side, (fun _ h => by cases h), rfl⟩

lemma isRival_epoch (side : Side) : IsRival r (some (r.epoch side)) := by
  cases side with
  | low => exact Or.inl rfl
  | high => exact Or.inr rfl

lemma Known.atSide (h : Known r d) (side : Side) {op : Station.Op}
    (hop : quiet op = true ∨ op.brings.isSome = true)
    (hbrings : ∀ linkId, op.brings = some linkId → IsRival r linkId) :
    Known r (d.atSide side op) := by
  constructor
  · intro side'
    unfold DoubleConnect.atSide
    dsimp only
    rcases eq_or_ne side' side with rfl | hne
    · rw [Function.update_self]
      exact (h.carries side').step hbrings
    · rw [Function.update_of_ne hne]
      exact h.carries side'
  · intro side'
    unfold DoubleConnect.atSide
    dsimp only
    rcases eq_or_ne side' side with rfl | hne
    · rw [Function.update_self]
      exact (h.willing side').step hop
    · rw [Function.update_of_ne hne]
      exact h.willing side'

lemma brings_of_quiet {op : Station.Op} (h : quiet op = true) : op.brings = none := by
  cases op <;> first | rfl | cases h

lemma Known.step (h : Known r d) (op : Op) : Known r (step r d op) := by
  cases op with
  | connect side spawns =>
    change Known r (if d.pressed side then d else _)
    split_ifs
    · exact h
    · have hside : Known r (d.atSide side (.launchChild ⟨r.address side.other, false,
          some (r.epoch side)⟩ spawns)) :=
        h.atSide side (Or.inr rfl) fun _ heq => Option.some.inj heq ▸ isRival_epoch side
      exact ⟨hside.carries, hside.willing⟩
  | accept side linkId =>
    change Known r (if d.accepts side linkId then _ else d)
    split_ifs with haccepts
    · exact h.atSide side (Or.inr rfl) fun _ heq =>
        Option.some.inj heq ▸ (h.carries side.other).dialled _ haccepts.1
    · exact h
  | act side op =>
    change Known r (if quiet op then _ else d)
    split_ifs with hquiet
    · refine h.atSide side (Or.inl hquiet) fun linkId heq => ?_
      rw [brings_of_quiet hquiet] at heq
      cases heq
    · exact h

lemma known_after (ops : List Op) : Known r (after r ops) :=
  Trace.always (I := fun _ d => Known r d) known_init fun _ op h => h.step op

/-! ### One poll -/

lemma shouldDialBack_iff {mode : Mode} (hmode : mode ≠ .clientOnly) (ceremonyOpen : Bool) :
    shouldDialBack mode ceremonyOpen = true ↔ ceremonyOpen = false := by
  simp [shouldDialBack, hmode]

lemma rival_ne : some (r.epoch .low) ≠ some (r.epoch .high) := fun h =>
  UInt64.ne_of_lt r.lt (Option.some.inj h)

/-- A child on the lower epoch goes for the higher one once it has exited. -/
lemma stays_low_iff {child : DialChild} (hchild : child.plan.linkId = some (r.epoch .low))
    {linkId : Option UInt64} (hlink : IsRival r linkId) :
    Stays child linkId ↔ (linkId = some (r.epoch .high) → child.alive = true) := by
  rcases hlink with rfl | rfl
  · refine iff_of_true (fun _ heq => ⟨r.epoch .low, hchild, Or.inl (Option.some.inj heq)⟩) ?_
    exact fun heq => absurd heq rival_ne
  · constructor
    · intro h _
      obtain ⟨old, hold, rfl | ⟨halive, -⟩⟩ := h _ rfl
      · exact absurd (hchild.symm.trans hold) rival_ne
      · exact halive
    · intro h _ heq
      obtain rfl := Option.some.inj heq
      exact ⟨r.epoch .low, hchild, Or.inr ⟨h rfl, r.lt⟩⟩

variable {status : LinkStatus} {gaveUp : Prop}

/-- The polls that find no child. -/
lemma pollsRight_none (hwilling : Willing s) (hfetched : s.fetched = some status)
    (hslot : s.slot = none) :
    (∀ address, .dialBack address (some (r.epoch .high)) ∉ (s.followed status).2) ↔
      ∀ link, s.ceremonyOpen = false → inboundLink status = some link →
        link.linkId = some (r.epoch .high) →
          dialBackDue s.following.lastInbound s.following.lastAttempt link s.now = false := by
  have hdrive := shouldDialBack_iff (hwilling.fetched status hfetched) s.ceremonyOpen
  have hopen (address : String) : s.dialbackSuppressed address = false := by
    rw [Station.dialbackSuppressed, hwilling.tombstones]
    rfl
  constructor
  · intro h link hceremony hlink hid
    by_contra hdue
    rw [Bool.not_eq_false] at hdue
    refine h link.address ((Station.mem_dialBack_of_none hslot).mpr
      ⟨link, hlink, ?_, rfl, hid.symm⟩)
    exact ⟨hdrive.mpr hceremony, hdue, hopen _⟩
  · intro h address hmem
    obtain ⟨link, hlink, ⟨hceremony, hdue, -⟩, -, hid⟩ :=
      (Station.mem_dialBack_of_none hslot).mp hmem
    rw [h link (hdrive.mp hceremony) hlink hid.symm] at hdue
    cases hdue

/-- The polls that find a child. -/
lemma pollsRight_some (hwilling : Willing s) (hcarries : s.Carries (IsRival r))
    (hfetched : s.fetched = some status) {child : DialChild} (hslot : s.slot = some child) :
    (.endLink (r.epoch .low) ∉ (s.followed status).2 ∧
      (gaveUp → ∀ address, .dialBack address (some (r.epoch .high)) ∉ (s.followed status).2)) ↔
      ∀ link, s.ceremonyOpen = false → inboundLink status = some link →
        link.linkId = some (r.epoch .high) → child.plan.linkId = some (r.epoch .low) →
          child.alive = true := by
  have hdrive := shouldDialBack_iff (hwilling.fetched status hfetched) s.ceremonyOpen
  rw [Station.mem_endLink_of_some hslot]
  constructor
  · rintro ⟨hban, -⟩ link hceremony hlink hid hlow
    by_contra hdead
    refine hban ⟨hlow, hdrive.mpr hceremony, link, hlink, ?_⟩
    rw [stays_low_iff hlow (Or.inr hid)]
    exact fun halive => hdead (halive hid)
  · intro h
    -- the child leaves for no link on the higher epoch
    have hstays (link : LinkView) (hceremony : s.ceremonyOpen = false)
        (hlink : inboundLink status = some link) (hid : link.linkId = some (r.epoch .high)) :
        Stays child link.linkId := by
      rcases hcarries.slot child hslot with hlow | hhigh
      · rw [stays_low_iff hlow (Or.inr hid)]
        exact fun _ => h link hceremony hlink hid hlow
      · exact fun _ heq => ⟨r.epoch .high, hhigh, Or.inl (Option.some.inj (hid.symm.trans heq))⟩
    constructor
    · rintro ⟨hlow, hceremony, link, hlink, hgoes⟩
      rcases hcarries.fetched status hfetched link hlink with hid | hid
      · refine hgoes ((stays_low_iff hlow (Or.inl hid)).mpr fun heq => ?_)
        exact absurd (hid.symm.trans heq) rival_ne
      · exact hgoes (hstays link (hdrive.mp hceremony) hlink hid)
    · intro _ address hmem
      obtain ⟨⟨hceremony, link, hlink, hgoes⟩, _, hlink', -, hid⟩ :=
        (Station.mem_dialBack_of_some hslot).mp hmem
      obtain rfl := Option.some.inj (hlink.symm.trans hlink')
      exact hgoes (hstays link (hdrive.mp hceremony) hlink hid.symm)

/-- Between the two epochs, a poll is right exactly if it is shielded. -/
lemma pollsRight_iff (h : Known r d) (op : Op) : PollsRight r d op ↔ Shielded r d op := by
  rcases op with ⟨side, spawns⟩ | ⟨side, linkId⟩ | ⟨side, op⟩
  · rfl
  · rfl
  · have hwilling := h.willing side
    have hcarries := h.carries side
    cases op with
    | follow spawns =>
      cases hslot : (d.station side).slot with
      | none =>
        constructor
        · intro hright status link hfetched hceremony hlink hid
          refine ⟨(fun _ heq => by rw [hslot] at heq; cases heq), fun hbanned _ => ?_⟩
          have hnot := (hright status hfetched).2 hbanned
          exact (pollsRight_none hwilling hfetched hslot).mp hnot link hceremony hlink hid
        · intro hshielded status hfetched
          refine ⟨Station.not_endLink_of_none hslot _, fun hbanned => ?_⟩
          rw [pollsRight_none hwilling hfetched hslot]
          exact fun link hceremony hlink hid =>
            (hshielded status link hfetched hceremony hlink hid).2 hbanned hslot
      | some child =>
        constructor
        · intro hright status link hfetched hceremony hlink hid
          have halive := (pollsRight_some hwilling hcarries hfetched hslot).mp
            (hright status hfetched) link hceremony hlink hid
          refine ⟨fun _ heq => ?_, fun _ hnone => by rw [hslot] at hnone; cases hnone⟩
          obtain rfl := Option.some.inj (hslot.symm.trans heq)
          exact halive
        · intro hshielded status hfetched
          rw [pollsRight_some hwilling hcarries hfetched hslot]
          exact fun link hceremony hlink hid =>
            (hshielded status link hfetched hceremony hlink hid).1 child hslot
    | _ => rfl

/-! ### Bans -/

lemma mem_ended_foldl {linkId : UInt64} {spawns : Bool} {effects : List FollowEffect}
    (h : linkId ∈ (effects.foldl (Station.perform spawns) s).ended.ended) :
    linkId ∈ s.ended.ended ∨ .endLink linkId ∈ effects := by
  induction effects generalizing s with
  | nil => exact Or.inl h
  | cons effect effects ih =>
    rcases ih h with hmem | hmem
    · cases effect with
      | announce link oneWay => exact Or.inl hmem
      | blank => exact Or.inl hmem
      | stopSession => exact Or.inl hmem
      | endLink banned =>
        rcases Finset.mem_insert.mp hmem with rfl | hold
        · exact Or.inr List.mem_cons_self
        · split_ifs at hold
          · cases hold
          · exact Or.inl hold
      | dialBack address linkId' =>
        unfold Station.perform Station.launchChild at hmem
        dsimp only at hmem
        split_ifs at hmem
        · exact Or.inl hmem
        · exact Or.inl hmem
    · exact Or.inr (List.mem_cons_of_mem _ hmem)

lemma mem_ended_step {linkId : UInt64} {op : Station.Op}
    (hop : quiet op = true ∨ op.brings.isSome = true) (h : linkId ∈ (s.step op).ended.ended) :
    linkId ∈ s.ended.ended ∨ ∃ spawns status, op = .follow spawns ∧ s.fetched = some status ∧
      .endLink linkId ∈ (s.followed status).2 := by
  cases op with
  | endLink banned => simp [quiet, Station.Op.brings] at hop
  | peerEndLink banned => simp [quiet, Station.Op.brings] at hop
  | tombstoneDialback address => simp [quiet, Station.Op.brings] at hop
  | follow spawns =>
    change linkId ∈ (s.follow spawns).ended.ended at h
    unfold Station.follow at h
    split at h
    · rename_i status hfetched
      rcases mem_ended_foldl h with hmem | hmem
      · exact Or.inl hmem
      · exact Or.inr ⟨spawns, status, rfl, hfetched, hmem⟩
    · exact Or.inl h
  | launchChild plan spawns =>
    change linkId ∈ (s.launchChild plan spawns).ended.ended at h
    unfold Station.launchChild at h
    split_ifs at h
    · exact Or.inl h
    · exact Or.inl h
  | reap =>
    change linkId ∈ s.reap.ended.ended at h
    unfold Station.reap at h
    split at h
    · split_ifs at h
      · exact Or.inl h
      · exact Or.inl h
    · exact Or.inl h
  | fetch live seen =>
    change linkId ∈ (s.fetch live seen).ended.ended at h
    unfold Station.fetch at h
    split_ifs at h
    · exact Or.inl h
    · exact Or.inl h
  | _ => exact Or.inl h

lemma banned_of_atSide {linkId : UInt64} {side : Side} {op : Station.Op}
    (hop : quiet op = true ∨ op.brings.isSome = true) (h : (d.atSide side op).Banned linkId) :
    d.Banned linkId ∨ ∃ spawns status, op = .follow spawns ∧
      (d.station side).fetched = some status ∧
        .endLink linkId ∈ ((d.station side).followed status).2 := by
  obtain ⟨side', hmem⟩ := h
  unfold atSide at hmem
  dsimp only at hmem
  rcases eq_or_ne side' side with rfl | hne
  · rw [Function.update_self] at hmem
    rcases mem_ended_step hop hmem with hold | hnew
    · exact Or.inl ⟨side', hold⟩
    · exact Or.inr hnew
  · rw [Function.update_of_ne hne] at hmem
    exact Or.inl ⟨side', hmem⟩

/-- Only a poll bans. -/
lemma banned_of_step {linkId : UInt64} {op : Op} (h : (step r d op).Banned linkId) :
    d.Banned linkId ∨ ∃ side spawns status, op = .act side (.follow spawns) ∧
      (d.station side).fetched = some status ∧
        .endLink linkId ∈ ((d.station side).followed status).2 := by
  cases op with
  | connect side spawns =>
    change Banned (if d.pressed side then d else _) linkId at h
    split_ifs at h
    · exact Or.inl h
    · have hside : (d.atSide side (.launchChild ⟨r.address side.other, false,
          some (r.epoch side)⟩ spawns)).Banned linkId := h
      rcases banned_of_atSide (Or.inr rfl) hside with hold | ⟨_, _, heq, -⟩
      · exact Or.inl hold
      · cases heq
  | accept side banned =>
    change Banned (if d.accepts side banned then _ else d) linkId at h
    split_ifs at h
    · rcases banned_of_atSide (Or.inr rfl) h with hold | ⟨_, _, heq, -⟩
      · exact Or.inl hold
      · cases heq
    · exact Or.inl h
  | act side op =>
    change Banned (if quiet op then _ else d) linkId at h
    split_ifs at h with hquiet
    · rcases banned_of_atSide (Or.inl hquiet) h with hold | ⟨spawns, status, rfl, hrest⟩
      · exact Or.inl hold
      · exact Or.inr ⟨side, spawns, status, rfl, hrest⟩
    · exact Or.inl h

/-- The lower epoch is never banned while the polls are right. -/
lemma not_banned_low {ops : List Op}
    (h : Trace.Each (fun m op => PollsRight r (after r m) op) ops) :
    ¬(after r ops).Banned (r.epoch .low) := by
  refine Trace.invariant (I := fun _ d => ¬Banned d (r.epoch .low))
    (P := fun m op => PollsRight r (after r m) op) ?_ ?_ h
  · rintro ⟨side, hmem⟩
    cases hmem
  · intro m op hkept hright hbanned
    rcases banned_of_step hbanned with hbefore | ⟨side, spawns, status, rfl, hfetched, hmem⟩
    · exact hkept hbefore
    · exact (hright status hfetched).1 hmem

/-- Two computers with the epochs one and two. -/
def rivals : Rivals where
  epoch | .low => 1 | .high => 2
  lt := by decide
  mode _ := .bidirectional
  drives _ := by decide
  fingerprintHex | .low => "aa" | .high => "bb"
  nodeName | .low => "a" | .high => "b"
  address | .low => "a" | .high => "b"

/-- Both users connect, and both daemons accept the other's link. The side with the higher epoch
adopts the lower one; the child of the other side exits before its next poll. -/
def exitBeforePoll : List Op :=
  [.connect .low true, .connect .high true, .accept .low 2, .accept .high 1,
    .act .high (.fetch [⟨0, linkOf rivals .low 1⟩] [⟨linkOf rivals .low 1, 0⟩]),
    .act .high (.follow true), .act .low .exit,
    .act .low (.fetch [⟨0, linkOf rivals .high 2⟩] [⟨linkOf rivals .high 2, 0⟩]),
    .act .low (.follow true)]

end DoubleConnect

end TheKvm

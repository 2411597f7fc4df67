import TheKvm.Lib.Json
import TheKvm.Lib.ResetSet
import TheKvm.Lib.Run

/-!
Link epochs that a Disconnect ended, and the bans that survive a restart.

The two sets are `HashSet<u64>`; the order one is iterated in is its own business, so where
it shows, in the file, it is a parameter.
-/

namespace TheKvm

/-- The epochs the local user ended and those the peer ended. -/
structure EndedLinks where
  ended : Finset UInt64
  peerEnded : Finset UInt64
  deriving DecidableEq

/-- The most epochs a set holds, and the most the file keeps of one. -/
def maxEndedLinks : ℕ := 32

namespace EndedLinks

/-- A daemon that knows of none. -/
def fresh : EndedLinks := ⟨∅, ∅⟩

def endLink (l : EndedLinks) (linkId : UInt64) : EndedLinks :=
  { l with ended := ResetSet.record maxEndedLinks l.ended linkId }

def peerEndLink (l : EndedLinks) (linkId : UInt64) : EndedLinks :=
  { l with peerEnded := ResetSet.record maxEndedLinks l.peerEnded linkId }

def peerLinkEnded (l : EndedLinks) (linkId : UInt64) : Bool := linkId ∈ l.peerEnded

def linkEnded (l : EndedLinks) (linkId : UInt64) : Bool :=
  linkId ∈ l.ended || l.peerLinkEnded linkId

/-- The ban of `teardown_link`. -/
def teardownLink (l : EndedLinks) : Option UInt64 → EndedLinks
  | some linkId => if l.linkEnded linkId then l else l.endLink linkId
  | none => l

/-! ### The file -/

/-- The document written for sets iterated in these orders. -/
def document (ended peerEnded : List UInt64) : Json :=
  .obj [("ended", .arr ((ended.take maxEndedLinks).map fun id => .nat id.toNat)),
    ("peer_ended", .arr ((peerEnded.take maxEndedLinks).map fun id => .nat id.toNat))]

/-- The lists are orders in which the two sets may be iterated. -/
def Iterates (l : EndedLinks) (ended peerEnded : List UInt64) : Prop :=
  (ended.Nodup ∧ ended.toFinset = l.ended) ∧ peerEnded.Nodup ∧ peerEnded.toFinset = l.peerEnded

instance (l : EndedLinks) (ended peerEnded : List UInt64) :
    Decidable (l.Iterates ended peerEnded) :=
  inferInstanceAs (Decidable (_ ∧ _ ∧ _))

/-- The text left in `ended_links.json`. -/
def persistEndedLinks (ended peerEnded : List UInt64) : String :=
  String.ofList (document ended peerEnded).text

/-- The epochs a document lists under a key, at most as many as a set holds. -/
def takeIds (parsed : Json) (key : String) : List UInt64 :=
  (((parsed.get key).bind Json.asArray).map fun items =>
    (items.filterMap Json.asU64).take maxEndedLinks).getD []

/-- Read the bans at startup. `fromStr` is `serde_json::from_str`; a blank or corrupt file
bans nothing. -/
def loadEndedLinks (fromStr : String → Option Json) (l : EndedLinks) (raw : String) :
    EndedLinks :=
  if (Text.trim raw).isEmpty then l
  else
    match fromStr raw with
    | none => l
    | some parsed =>
      (takeIds parsed "peer_ended").foldl peerEndLink ((takeIds parsed "ended").foldl endLink l)

/-! ### Runs -/

/-- A restart writes the bans, iterated in the given orders, and a new process reads them. -/
inductive EndedOp
  | endLink (linkId : UInt64)
  | peerEndLink (linkId : UInt64)
  | restart (ended peerEnded : List UInt64)

/-- One call; `none` where a set cannot be iterated in the order given. -/
def step (fromStr : String → Option Json) (l : EndedLinks) :
    EndedOp → Option (EndedLinks × Unit)
  | .endLink linkId => some (l.endLink linkId, ())
  | .peerEndLink linkId => some (l.peerEndLink linkId, ())
  | .restart ended peerEnded =>
    if l.Iterates ended peerEnded then
      some (loadEndedLinks fromStr fresh (persistEndedLinks ended peerEnded), ())
    else none

/-- The epoch the local user ends by a call. -/
def localEnd : EndedOp → Option UInt64
  | .endLink linkId => some linkId
  | .peerEndLink _ | .restart _ _ => none

/-- The epoch the peer ends by a call. -/
def peerEnd : EndedOp → Option UInt64
  | .peerEndLink linkId => some linkId
  | .endLink _ | .restart _ _ => none

/-- The epochs the local user ended, in order. -/
def localEnds (ops : List EndedOp) : List UInt64 := ops.filterMap localEnd

/-- The epochs the peer ended, in order. -/
def peerEnds (ops : List EndedOp) : List UInt64 := ops.filterMap peerEnd

/-- All the epochs ended, in order. -/
def ends (ops : List EndedOp) : List UInt64 :=
  ops.filterMap fun op => (localEnd op).or (peerEnd op)

/-- A call does not end again an epoch that a full set of its kind bans already. -/
def FullTakesNew (l : EndedLinks) : EndedOp → Prop
  | .endLink linkId => maxEndedLinks ≤ l.ended.card → linkId ∉ l.ended
  | .peerEndLink linkId => maxEndedLinks ≤ l.peerEnded.card → linkId ∉ l.peerEnded
  | .restart _ _ => True

/-- The library reads back the document a restart writes. -/
def ReadsBack (fromStr : String → Option Json) : EndedOp → Prop
  | .restart ended peerEnded =>
    fromStr (persistEndedLinks ended peerEnded) = some (document ended peerEnded)
  | _ => True

/-! ### A teardown -/

/-- A teardown bans its epoch, and a second one changes nothing. -/
theorem teardownLink_bans (l : EndedLinks) (linkId : UInt64) :
    (l.teardownLink (some linkId)).linkEnded linkId ∧
      (l.teardownLink (some linkId)).teardownLink (some linkId) =
        l.teardownLink (some linkId) := by
  have hbans : (l.teardownLink (some linkId)).linkEnded linkId := by
    show (if l.linkEnded linkId then l else l.endLink linkId).linkEnded linkId = true
    split_ifs with h
    · exact h
    · simp only [linkEnded, endLink, ResetSet.mem_record, decide_true, Bool.true_or]
  exact ⟨hbans, if_pos hbans⟩

/-! ### A restart -/

/-- What is listed in a document is read back from it. -/
lemma filterMap_asU64 (ids : List UInt64) :
    (ids.map fun id => Json.nat id.toNat).filterMap Json.asU64 = ids := by
  induction ids with
  | nil => rfl
  | cons id ids ih =>
    rw [List.map_cons, List.filterMap_cons, Json.asU64_nat, ih]

lemma takeIds_document {ended peerEnded : List UInt64} (h : ended.length ≤ maxEndedLinks)
    (hp : peerEnded.length ≤ maxEndedLinks) :
    takeIds (document ended peerEnded) "ended" = ended ∧
      takeIds (document ended peerEnded) "peer_ended" = peerEnded := by
  rw [document, List.take_of_length_le h, List.take_of_length_le hp]
  constructor
  · show ((ended.map _).filterMap Json.asU64).take _ = _
    rw [filterMap_asU64, List.take_of_length_le h]
  · show ((peerEnded.map _).filterMap Json.asU64).take _ = _
    rw [filterMap_asU64, List.take_of_length_le hp]

lemma foldl_endLink (ids : List UInt64) (l : EndedLinks) :
    ids.foldl endLink l =
      { l with ended := ids.foldl (ResetSet.record maxEndedLinks) l.ended } := by
  induction ids generalizing l with
  | nil => rfl
  | cons id ids ih => rw [List.foldl_cons, ih, List.foldl_cons, endLink]

lemma foldl_peerEndLink (ids : List UInt64) (l : EndedLinks) :
    ids.foldl peerEndLink l =
      { l with peerEnded := ids.foldl (ResetSet.record maxEndedLinks) l.peerEnded } := by
  induction ids generalizing l with
  | nil => rfl
  | cons id ids ih => rw [List.foldl_cons, ih, List.foldl_cons, peerEndLink]

/-- **A restart changes nothing**, in whatever order the sets are written. -/
theorem restart_eq {fromStr : String → Option Json} {l : EndedLinks}
    {ended peerEnded : List UInt64} (hit : l.Iterates ended peerEnded)
    (hcard : l.ended.card ≤ maxEndedLinks) (hpeer : l.peerEnded.card ≤ maxEndedLinks)
    (hserde : fromStr (persistEndedLinks ended peerEnded) = some (document ended peerEnded)) :
    loadEndedLinks fromStr fresh (persistEndedLinks ended peerEnded) = l := by
  obtain ⟨⟨hnodup, hset⟩, hpnodup, hpset⟩ := hit
  have hlen : ended.length ≤ maxEndedLinks := by
    rwa [← List.toFinset_card_of_nodup hnodup, hset]
  have hplen : peerEnded.length ≤ maxEndedLinks := by
    rwa [← List.toFinset_card_of_nodup hpnodup, hpset]
  obtain ⟨hids, hpids⟩ := takeIds_document hlen hplen
  have hblank : (Text.trim (persistEndedLinks ended peerEnded)).isEmpty = false :=
    Text.trim_not_empty (c := '{') (by rw [persistEndedLinks, String.toList_ofList]; rfl)
      (by decide)
  rw [loadEndedLinks, hblank, hserde]
  simp only [Bool.false_eq_true, if_false, hids, hpids]
  rw [foldl_endLink, foldl_peerEndLink]
  simp only [fresh]
  rw [ResetSet.foldl_record hnodup (by simp) (by simpa using hlen),
    ResetSet.foldl_record hpnodup (by simp) (by simpa using hplen), hset, hpset]
  simp

/-! ### Bans -/

/-- The sets hold the epochs ended since the last reset of each. -/
def Tracks (ops : List EndedOp) (l : EndedLinks) : Prop :=
  ∃ recent peerRecent,
    (ResetSet.SinceReset maxEndedLinks (localEnds ops) recent ∧ recent.toFinset = l.ended) ∧
      ResetSet.SinceReset maxEndedLinks (peerEnds ops) peerRecent ∧
        peerRecent.toFinset = l.peerEnded

lemma localEnds_snoc (ops : List EndedOp) (op : EndedOp) :
    localEnds (ops ++ [op]) = localEnds ops ++ (localEnd op).toList := by
  rw [localEnds, List.filterMap_append]
  cases op <;> rfl

lemma peerEnds_snoc (ops : List EndedOp) (op : EndedOp) :
    peerEnds (ops ++ [op]) = peerEnds ops ++ (peerEnd op).toList := by
  rw [peerEnds, List.filterMap_append]
  cases op <;> rfl

/-- **One call keeps track.** -/
lemma step_tracks {fromStr : String → Option Json} {ops : List EndedOp} {l l' : EndedLinks}
    {op : EndedOp} {reply : Unit} (ht : Tracks ops l)
    (hop : l.FullTakesNew op ∧ ReadsBack fromStr op)
    (hs : step fromStr l op = some (l', reply)) : Tracks (ops ++ [op]) l' := by
  obtain ⟨recent, peerRecent, ⟨hsince, hset⟩, hpeer, hpset⟩ := ht
  unfold Tracks
  rw [localEnds_snoc, peerEnds_snoc]
  cases op with
  | endLink linkId =>
    obtain ⟨rfl, -⟩ := Prod.mk.inj (Option.some.inj hs)
    obtain ⟨recent', hsince', hset'⟩ := hsince.record (a := linkId) fun hfull hmem => by
      rw [hset] at hfull
      exact hop.1 hfull (hset ▸ List.mem_toFinset.mpr hmem)
    refine ⟨recent', peerRecent, ⟨hsince', ?_⟩, ?_, hpset⟩
    · rw [hset', hset]
      rfl
    · rwa [peerEnd, Option.toList_none, List.append_nil]
  | peerEndLink linkId =>
    obtain ⟨rfl, -⟩ := Prod.mk.inj (Option.some.inj hs)
    obtain ⟨recent', hsince', hset'⟩ := hpeer.record (a := linkId) fun hfull hmem => by
      rw [hpset] at hfull
      exact hop.1 hfull (hpset ▸ List.mem_toFinset.mpr hmem)
    refine ⟨recent, recent', ⟨?_, hset⟩, hsince', ?_⟩
    · rwa [localEnd, Option.toList_none, List.append_nil]
    · rw [hset', hpset]
      rfl
  | restart ended peerEnded =>
    simp only [step, Option.ite_none_right_eq_some] at hs
    obtain ⟨hit, hs⟩ := hs
    have hcard := hset ▸ hsince.card_le (by decide)
    have hpcard := hpset ▸ hpeer.card_le (by decide)
    rw [restart_eq hit hcard hpcard hop.2] at hs
    obtain ⟨rfl, -⟩ := Prod.mk.inj (Option.some.inj hs)
    rw [localEnd, peerEnd, Option.toList_none, List.append_nil, List.append_nil]
    exact ⟨recent, peerRecent, ⟨hsince, hset⟩, hpeer, hpset⟩

/-- **Bans last until their set resets.** The banned epochs are those ended since the last
reset of either kind, and all that were ever ended while these are few; restarts change
nothing. -/
theorem linkEnded_iff_sinceReset {fromStr : String → Option Json} {ops : List EndedOp}
    {l : EndedLinks} {replies : List Unit} (hserde : ∀ op ∈ ops, ReadsBack fromStr op)
    (hnew : Run.Each (step fromStr) FullTakesNew fresh ops)
    (hrun : Run.run (step fromStr) fresh ops = some (l, replies)) :
    (∃ recent peerRecent, ResetSet.SinceReset maxEndedLinks (localEnds ops) recent ∧
      ResetSet.SinceReset maxEndedLinks (peerEnds ops) peerRecent ∧
      ∀ linkId, l.linkEnded linkId ↔ linkId ∈ recent ∨ linkId ∈ peerRecent) ∧
    ((localEnds ops).toFinset.card ≤ maxEndedLinks →
      ∀ linkId ∈ localEnds ops, l.linkEnded linkId) ∧
    ((peerEnds ops).toFinset.card ≤ maxEndedLinks →
      ∀ linkId ∈ peerEnds ops, l.linkEnded linkId) := by
  have hstart : Tracks [] fresh :=
    ⟨[], [], ⟨.start, rfl⟩, .start, rfl⟩
  obtain ⟨recent, peerRecent, ⟨hsince, hset⟩, hpeer, hpset⟩ :=
    Run.invariant_history (fun _ _ _ _ _ ht hop hs => step_tracks ht hop hs) hstart
      (hnew.and_mem hserde) hrun
  rw [List.nil_append] at hsince hpeer
  have hbanned : ∀ linkId, l.linkEnded linkId ↔ linkId ∈ recent ∨ linkId ∈ peerRecent := by
    intro linkId
    simp only [linkEnded, peerLinkEnded, Bool.or_eq_true, decide_eq_true_eq, ← hset, ← hpset,
      List.mem_toFinset]
  refine ⟨⟨recent, peerRecent, hsince, hpeer, hbanned⟩, fun hfew linkId hmem => ?_,
    fun hfew linkId hmem => ?_⟩
  · rw [hbanned, hsince.eq_calls hfew]
    exact Or.inl hmem
  · rw [hbanned, hpeer.eq_calls hfew]
    exact Or.inr hmem

/-- Two bans outlive a restart. -/
theorem linkEnded_after_restart : ∃ fromStr l replies,
    Run.run (step fromStr) fresh [.endLink 7, .peerEndLink 9, .restart [7] [9]] =
      some (l, replies) ∧ l.linkEnded 7 ∧ l.linkEnded 9 := by
  obtain ⟨fromStr, hparse⟩ : ∃ fromStr : String → Option Json,
      fromStr (persistEndedLinks [7] [9]) = some (document [7] [9]) :=
    ⟨fun raw => if raw = persistEndedLinks [7] [9] then some (document [7] [9]) else none,
      if_pos rfl⟩
  obtain ⟨l, hl⟩ : ∃ l, l = (fresh.endLink 7).peerEndLink 9 := ⟨_, rfl⟩
  have hit : l.Iterates [7] [9] := by
    rw [hl]
    decide
  have hrestart : step fromStr l (.restart [7] [9]) = some (l, ()) := by
    rw [step, if_pos hit, restart_eq hit (by rw [hl]; decide) (by rw [hl]; decide) hparse]
  have hrun : Run.run (step fromStr) fresh [.endLink 7, .peerEndLink 9, .restart [7] [9]] =
      some (l, [(), (), ()]) := by
    rw [Run.run_cons_some]
    refine ⟨_, _, _, rfl, ?_, rfl⟩
    rw [Run.run_cons_some]
    refine ⟨_, _, _, rfl, ?_, rfl⟩
    rw [← hl, Run.run_cons_some]
    exact ⟨_, _, _, hrestart, rfl, rfl⟩
  have hnew : Run.Each (step fromStr) FullTakesNew fresh
      [.endLink 7, .peerEndLink 9, .restart [7] [9]] := by
    refine ⟨fun hfull => absurd hfull (by decide), fun s o hs => ?_⟩
    obtain ⟨rfl, -⟩ := Prod.mk.inj (Option.some.inj hs)
    exact ⟨fun hfull => absurd hfull (by decide), fun _ _ _ => ⟨trivial, fun _ _ _ => trivial⟩⟩
  obtain ⟨-, hlocal, hpeer⟩ :=
    linkEnded_iff_sinceReset (by simpa [ReadsBack] using hparse) hnew hrun
  exact ⟨fromStr, l, _, hrun, hlocal (by decide) 7 (by decide), hpeer (by decide) 9 (by decide)⟩

/-- A run of local ends. -/
lemma run_endLinks (fromStr : String → Option Json) (ids : List UInt64) (l : EndedLinks) :
    ∃ replies,
      Run.run (step fromStr) l (ids.map .endLink) = some (ids.foldl endLink l, replies) := by
  induction ids generalizing l with
  | nil => exact ⟨[], rfl⟩
  | cons id ids ih =>
    obtain ⟨replies, hrun⟩ := ih (l.endLink id)
    exact ⟨() :: replies, Run.run_cons_some.mpr ⟨_, _, _, rfl, hrun, rfl⟩⟩

/-- Epochs 0 to 32, one after the other: the last takes the bans of all others with it. -/
theorem reset_forgets_recent :
    ¬∀ (fromStr : String → Option Json) (ops : List EndedOp) (l : EndedLinks)
      (replies : List Unit), (∀ op ∈ ops, ReadsBack fromStr op) →
      Run.run (step fromStr) fresh ops = some (l, replies) →
      ∀ linkId before after, ends ops = before ++ linkId :: after → linkId ∉ after →
        after.toFinset.card < 32 → l.linkEnded linkId := by
  intro h
  obtain ⟨ids, hids⟩ : ∃ ids, ids = (List.range 32).map UInt64.ofNat := ⟨_, rfl⟩
  have hfull : ids.foldl (ResetSet.record maxEndedLinks) ∅ = ids.toFinset := by
    rw [ResetSet.foldl_record (by rw [hids]; decide) (by simp) (by rw [hids]; decide),
      Finset.empty_union]
  have hlast : ResetSet.record maxEndedLinks ids.toFinset 32 = {32} := by
    rw [ResetSet.record, if_pos (by rw [hids]; decide)]
    rfl
  have hset : (ids ++ [32]).foldl endLink fresh = ⟨{32}, ∅⟩ := by
    rw [foldl_endLink, List.foldl_append, fresh, hfull, List.foldl_cons, List.foldl_nil, hlast]
  obtain ⟨replies, hrun⟩ := run_endLinks (fun _ => none) (ids ++ [32]) fresh
  rw [hset, hids] at hrun
  have hban := h _ _ _ _ (fun op hop => by
      obtain ⟨id, -, rfl⟩ := List.mem_map.mp hop
      trivial) hrun 1 [0] ((List.range' 2 31).map UInt64.ofNat) rfl (by decide) (by decide)
  exact absurd hban (by decide)

end EndedLinks

end TheKvm

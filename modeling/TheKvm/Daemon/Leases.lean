import Mathlib.Data.List.AList
import TheKvm.Core.Router
import TheKvm.Lib.Trace

/-!
The leases of the outbound links: one record for each peer and epoch, begun, refreshed and ended by
the connection that owns it, and taken by a disconnect.

A connection ends the record that it began itself, and no record is torn down twice. A disconnect
finds its record by the epoch or by the address, in the order of a hash map, so it may take the
record of another epoch at the same address.
-/

namespace TheKvm

/-- Facts the teardown needs, resolved from a lease record. -/
structure LeaseInfo where
  fingerprintHex : String
  address : String
  linkId : Option UInt64
  deriving DecidableEq

structure OutboundLease where
  id : UInt64
  fingerprintHex : String
  address : String
  linkId : Option UInt64
  lastPing : Instant
  deriving DecidableEq

def OutboundLease.info (record : OutboundLease) : LeaseInfo :=
  ⟨record.fingerprintHex, record.address, record.linkId⟩

/-- The peer's fingerprint and the epoch. -/
abbrev OutboundLeaseKey := String × Option UInt64

/-- `OUTBOUND_LEASES` and `LEASE_IDS`. -/
structure Leases where
  leases : AList fun _ : OutboundLeaseKey => OutboundLease
  nextId : UInt64

namespace Leases

def start : Leases := ⟨∅, 1⟩

def leaseBegin (s : Leases) (fingerprintHex address : String) (linkId : Option UInt64)
    (now : Instant) : Leases × UInt64 :=
  (⟨s.leases.insert (fingerprintHex, linkId) ⟨s.nextId, fingerprintHex, address, linkId, now⟩,
    s.nextId + 1⟩, s.nextId)

/-- The record of a link, if this connection owns it. -/
def owned (s : Leases) (fingerprintHex : String) (linkId : Option UInt64) (id : UInt64) :
    Option OutboundLease :=
  (s.leases.lookup (fingerprintHex, linkId)).filter fun record => record.id = id

def leaseTouch (s : Leases) (fingerprintHex : String) (linkId : Option UInt64) (id : UInt64)
    (now : Instant) : Leases × Bool :=
  match s.owned fingerprintHex linkId id with
  | some record =>
    ({ s with leases := s.leases.insert (fingerprintHex, linkId) { record with lastPing := now } },
      true)
  | none => (s, false)

def leaseEnd (s : Leases) (fingerprintHex : String) (linkId : Option UInt64) (id : UInt64) :
    Leases × Option LeaseInfo :=
  match s.owned fingerprintHex linkId id with
  | some record => ({ s with leases := s.leases.erase (fingerprintHex, linkId) }, some record.info)
  | none => (s, none)

/-- What a disconnect looks for. -/
def matchesLease (linkId : Option UInt64) (address : Option String) (record : OutboundLease) :
    Bool :=
  linkId.any (fun epoch => record.linkId = some epoch) ||
    address.any (fun address => record.address = address)

/-- The first key, in the order of the map, whose record matches. -/
def firstMatch (s : Leases) (linkId : Option UInt64) (address : Option String)
    (order : List OutboundLeaseKey) : Option OutboundLeaseKey :=
  order.find? fun key => (s.leases.lookup key).any (matchesLease linkId address)

/-- `order` is the order in which the map is iterated. -/
def takeLease (s : Leases) (linkId : Option UInt64) (address : Option String)
    (order : List OutboundLeaseKey) : Leases × Option LeaseInfo :=
  match s.firstMatch linkId address order with
  | none => (s, none)
  | some key =>
    ({ s with leases := s.leases.erase key }, (s.leases.lookup key).map OutboundLease.info)

/-! ### Runs -/

end Leases

inductive LeaseOp
  | leaseBegin (fingerprintHex address : String) (linkId : Option UInt64) (now : Instant)
  | leaseTouch (fingerprintHex : String) (linkId : Option UInt64) (id : UInt64) (now : Instant)
  | leaseEnd (fingerprintHex : String) (linkId : Option UInt64) (id : UInt64)
  | takeLease (linkId : Option UInt64) (address : Option String) (order : List OutboundLeaseKey)

inductive LeaseReply
  | begun (id : UInt64)
  | touched (alive : Bool)
  | ended (info : Option LeaseInfo)
  | taken (info : Option LeaseInfo)
  deriving DecidableEq

namespace Leases

def step (s : Leases) : LeaseOp → Leases × LeaseReply
  | .leaseBegin fingerprintHex address linkId now =>
    (s.leaseBegin fingerprintHex address linkId now).map id .begun
  | .leaseTouch fingerprintHex linkId id now =>
    (s.leaseTouch fingerprintHex linkId id now).map (·) .touched
  | .leaseEnd fingerprintHex linkId id => (s.leaseEnd fingerprintHex linkId id).map (·) .ended
  | .takeLease linkId address order => (s.takeLease linkId address order).map id .taken

def after (ops : List LeaseOp) : Leases := Trace.final step start ops

/-- The link whose record a call tears down, and the record. -/
def tornDown (s : Leases) : LeaseOp → Option (OutboundLeaseKey × OutboundLease)
  | .leaseEnd fingerprintHex linkId id =>
    (s.owned fingerprintHex linkId id).map fun record => ((fingerprintHex, linkId), record)
  | .takeLease linkId address order =>
    (s.firstMatch linkId address order).bind fun key =>
      (s.leases.lookup key).map fun record => (key, record)
  | _ => none

/-- The link for which a call begins a record, and its number. -/
def began (s : Leases) : LeaseOp → Option (OutboundLeaseKey × UInt64)
  | .leaseBegin fingerprintHex _ linkId _ => some ((fingerprintHex, linkId), s.nextId)
  | _ => none

/-- The records torn down in a run. -/
def torn (ops : List LeaseOp) : List OutboundLease :=
  (Trace.outputs (fun s op => ((step s op).1, s.tornDown op)) start ops).filterMap
    (·.map Prod.snd)

/-- The links and numbers of the records begun in a run. -/
def begun (ops : List LeaseOp) : List (OutboundLeaseKey × UInt64) :=
  (Trace.outputs (fun s op => ((step s op).1, s.began op)) start ops).filterMap id

/-- The number of the record begun last for a link. -/
def lastBegun (ops : List LeaseOp) (key : OutboundLeaseKey) : Option UInt64 :=
  (((begun ops).filter fun entry => entry.1 = key).getLast?).map Prod.snd

/-- The epoch has a record. -/
def Live (s : Leases) (epoch : UInt64) : Prop :=
  ∃ key record, s.leases.lookup key = some record ∧ record.linkId = some epoch

/-- A map is iterated entry by entry. -/
def Iterates (s : Leases) : LeaseOp → Prop
  | .takeLease _ _ order => order.Perm s.leases.keys
  | _ => True

/-- Every teardown is that of the link it is meant for. -/
structure Identified (ops : List LeaseOp) : Prop where
  /-- Only the connection whose number is the current record's ends it. -/
  current : ∀ m fingerprintHex linkId id info, m ++ [.leaseEnd fingerprintHex linkId id] <+: ops →
    (step (after m) (.leaseEnd fingerprintHex linkId id)).2 = .ended (some info) →
    lastBegun m (fingerprintHex, linkId) = some id
  /-- The end of a superseded connection does nothing. -/
  superseded : ∀ k l m fingerprintHex address address' linkId now now',
    m = k ++ [.leaseBegin fingerprintHex address linkId now] ++ l →
    .leaseBegin fingerprintHex address' linkId now' ∈ l →
    m ++ [.leaseEnd fingerprintHex linkId (after k).nextId] <+: ops →
    step (after m) (.leaseEnd fingerprintHex linkId (after k).nextId) = (after m, .ended none)
  /-- No record is torn down twice. -/
  once : ((torn ops).map OutboundLease.id).Nodup
  /-- A disconnect that names a live epoch takes the record of that epoch. -/
  named : ∀ m epoch address order, m ++ [.takeLease (some epoch) address order] <+: ops →
    (after m).Live epoch → ∃ key record,
      (after m).tornDown (.takeLease (some epoch) address order) = some (key, record) ∧
        record.linkId = some epoch

/-- No number is given twice, and where the named epoch has a record, every record at the given
address is of that epoch. -/
def Clear (m : List LeaseOp) : LeaseOp → Prop
  | .leaseBegin .. => (begun m).length < 2 ^ 64
  | .takeLease (some epoch) (some address) _ => (after m).Live epoch →
    ∀ key record, (after m).leases.lookup key = some record → record.address = address →
      record.linkId = some epoch
  | _ => True

/-! ### One call -/

section

variable {s : Leases} {op : LeaseOp} {key : OutboundLeaseKey} {record : OutboundLease}

lemma owned_eq {fingerprintHex : String} {linkId : Option UInt64} {id : UInt64} :
    s.owned fingerprintHex linkId id = some record ↔
      s.leases.lookup (fingerprintHex, linkId) = some record ∧ record.id = id := by
  rw [owned, Option.filter_eq_some_iff, decide_eq_true_iff]

/-- What is torn down was there and is no more. -/
lemma tornDown_some (h : s.tornDown op = some (key, record)) :
    s.leases.lookup key = some record ∧ (step s op).1.leases = s.leases.erase key ∧
      (step s op).1.nextId = s.nextId := by
  cases op with
  | leaseBegin | leaseTouch => simp [tornDown] at h
  | leaseEnd fingerprintHex linkId id =>
    obtain ⟨r, hr, heq⟩ := Option.map_eq_some_iff.mp h
    obtain ⟨rfl, rfl⟩ := Prod.mk.inj heq
    refine ⟨(owned_eq.mp hr).1, ?_⟩
    simp only [step, leaseEnd, hr]
    exact ⟨rfl, rfl⟩
  | takeLease linkId address order =>
    obtain ⟨k, hk, hmap⟩ := Option.bind_eq_some_iff.mp h
    obtain ⟨r, hr, heq⟩ := Option.map_eq_some_iff.mp hmap
    obtain ⟨rfl, rfl⟩ := Prod.mk.inj heq
    refine ⟨hr, ?_⟩
    simp only [step, takeLease, hk]
    exact ⟨rfl, rfl⟩

/-- A record after a call was there, with another ping at most, or is begun by the call. -/
lemma lookup_step (h : (step s op).1.leases.lookup key = some record) :
    (∃ old, s.leases.lookup key = some old ∧ record.id = old.id ∧ record.linkId = old.linkId ∧
      (s.began op).all (·.1 ≠ key) ∧ ∀ torn, s.tornDown op = some torn → torn.1 ≠ key) ∨
    (s.began op = some (key, record.id) ∧ record.linkId = key.2 ∧ s.tornDown op = none) := by
  rcases htorn : s.tornDown op with _ | ⟨k, r⟩
  · cases op with
    | leaseBegin fingerprintHex address linkId now =>
      by_cases hkey : key = (fingerprintHex, linkId)
      · subst hkey
        have hnew : (step s (.leaseBegin fingerprintHex address linkId now)).1.leases.lookup
            (fingerprintHex, linkId) =
              some ⟨s.nextId, fingerprintHex, address, linkId, now⟩ := AList.lookup_insert _
        obtain rfl := Option.some.inj (hnew.symm.trans h)
        exact .inr ⟨rfl, rfl, rfl⟩
      · have hold : (step s (.leaseBegin fingerprintHex address linkId now)).1.leases.lookup key =
            s.leases.lookup key := AList.lookup_insert_ne hkey
        refine .inl ⟨record, hold ▸ h, rfl, rfl, ?_, by simp⟩
        simpa [began] using Ne.symm hkey
    | leaseTouch fingerprintHex linkId id now =>
      left
      rcases howned : s.owned fingerprintHex linkId id with _ | r
      · simp only [step, leaseTouch, howned] at h
        exact ⟨record, h, rfl, rfl, rfl, by simp⟩
      · simp only [step, leaseTouch, howned] at h
        by_cases hkey : key = (fingerprintHex, linkId)
        · subst hkey
          obtain rfl := Option.some.inj ((AList.lookup_insert s.leases).symm.trans h)
          exact ⟨r, (owned_eq.mp howned).1, rfl, rfl, rfl, by simp⟩
        · exact ⟨record, (AList.lookup_insert_ne hkey).symm.trans h, rfl, rfl, rfl, by simp⟩
    | leaseEnd fingerprintHex linkId id =>
      have hnone : s.owned fingerprintHex linkId id = none := Option.map_eq_none_iff.mp htorn
      simp only [step, leaseEnd, hnone] at h
      exact .inl ⟨record, h, rfl, rfl, rfl, by simp⟩
    | takeLease linkId address order =>
      left
      rcases hfirst : s.firstMatch linkId address order with _ | k
      · simp only [step, takeLease, hfirst] at h
        exact ⟨record, h, rfl, rfl, rfl, by simp⟩
      · -- A key that matches has a record.
        have hmatch := List.find?_some hfirst
        rcases hr : s.leases.lookup k with _ | r
        · simp [hr] at hmatch
        · simp [tornDown, hfirst, hr] at htorn
  · obtain ⟨-, hleases, -⟩ := tornDown_some htorn
    have hne : key ≠ k := by
      rintro rfl
      rw [hleases, AList.lookup_erase] at h
      cases h
    rw [hleases, AList.lookup_erase_ne hne] at h
    refine .inl ⟨record, h, rfl, rfl, ?_, fun torn ht => ?_⟩
    · cases op with
      | leaseBegin | leaseTouch => simp [tornDown] at htorn
      | leaseEnd | takeLease => rfl
    · obtain rfl := Option.some.inj ht
      exact hne.symm

lemma nextId_step : (step s op).1.nextId = s.nextId + if (s.began op).isSome then 1 else 0 := by
  rcases htorn : s.tornDown op with _ | ⟨k, r⟩
  · cases op with
    | leaseBegin => rfl
    | leaseTouch fingerprintHex linkId id now =>
      simp only [step, leaseTouch, began]
      split <;> exact (UInt64.add_zero _).symm
    | leaseEnd fingerprintHex linkId id =>
      simp only [step, leaseEnd, began]
      split <;> exact (UInt64.add_zero _).symm
    | takeLease linkId address order =>
      simp only [step, takeLease, began]
      split <;> exact (UInt64.add_zero _).symm
  · rw [(tornDown_some htorn).2.2]
    cases op with
    | leaseBegin | leaseTouch => simp [tornDown] at htorn
    | leaseEnd | takeLease => exact (UInt64.add_zero _).symm

/-- The end of a connection that owns no record does nothing. -/
lemma leaseEnd_of_not_owned {fingerprintHex : String} {linkId : Option UInt64} {id : UInt64}
    (h : s.owned fingerprintHex linkId id = none) :
    step s (.leaseEnd fingerprintHex linkId id) = (s, .ended none) := by
  simp only [step, leaseEnd, h]
  rfl

/-- The end of a connection gives facts only if it owns the record. -/
lemma owned_of_ended {fingerprintHex : String} {linkId : Option UInt64} {id : UInt64}
    {info : LeaseInfo}
    (h : (step s (.leaseEnd fingerprintHex linkId id)).2 = .ended (some info)) :
    ∃ record, s.leases.lookup (fingerprintHex, linkId) = some record ∧ record.id = id := by
  rcases howned : s.owned fingerprintHex linkId id with _ | record
  · rw [leaseEnd_of_not_owned howned] at h
    cases h
  · exact ⟨record, owned_eq.mp howned⟩

end

/-! ### A disconnect -/

section

variable {s : Leases} {epoch : UInt64} {address : Option String} {order : List OutboundLeaseKey}

/-- A disconnect takes a record of the live epoch it names, whatever the order of the map, if what
is at the address is of that epoch. -/
lemma takes_epoch (hlive : s.Live epoch)
    (haddress : ∀ a, address = some a → ∀ key record, s.leases.lookup key = some record →
      record.address = a → record.linkId = some epoch)
    (hperm : order.Perm s.leases.keys) :
    ∃ key record, s.tornDown (.takeLease (some epoch) address order) = some (key, record) ∧
      record.linkId = some epoch := by
  obtain ⟨live, lease, hlookup, hepoch⟩ := hlive
  have hmem : live ∈ order :=
    hperm.mem_iff.mpr (AList.lookup_isSome.mp (Option.isSome_of_eq_some hlookup))
  obtain ⟨key, hfirst⟩ : ∃ key, s.firstMatch (some epoch) address order = some key := by
    rw [← Option.isSome_iff_exists, firstMatch, List.find?_isSome]
    exact ⟨live, hmem, by simp [hlookup, matchesLease, hepoch]⟩
  have hmatch := List.find?_some hfirst
  rcases hrecord : s.leases.lookup key with _ | record
  · simp [hrecord] at hmatch
  · refine ⟨key, record, by simp [tornDown, hfirst, hrecord], ?_⟩
    simp only [hrecord, Option.any_some, matchesLease, Bool.or_eq_true, decide_eq_true_eq]
      at hmatch
    rcases hmatch with hsame | hat
    · exact hsame
    · obtain ⟨a, ha, hhere⟩ := (Option.any_eq_true _ _).mp hat
      exact haddress a ha key record hrecord (of_decide_eq_true hhere)

/-- **When a disconnect takes the epoch it names**, in every order of the map: exactly if what is
at the address is of that epoch. -/
theorem takes_epoch_iff {a : String} (hlive : s.Live epoch) :
    (∀ order : List OutboundLeaseKey, order.Perm s.leases.keys → ∃ key record,
      s.tornDown (.takeLease (some epoch) (some a) order) = some (key, record) ∧
        record.linkId = some epoch) ↔
    ∀ key record, s.leases.lookup key = some record → record.address = a →
      record.linkId = some epoch := by
  constructor
  · intro h key record hlookup haddress
    have hmem : key ∈ s.leases.keys :=
      AList.lookup_isSome.mp (Option.isSome_of_eq_some hlookup)
    -- The map may begin with this record.
    obtain ⟨k, r, htorn, hepoch⟩ :=
      h (key :: s.leases.keys.erase key) (List.perm_cons_erase hmem).symm
    have hfirst : s.firstMatch (some epoch) (some a) (key :: s.leases.keys.erase key) =
        some key := by
      rw [firstMatch, List.find?_cons_of_pos]
      simp [hlookup, matchesLease, haddress]
    simp only [tornDown, hfirst, hlookup, Option.bind_some, Option.map_some,
      Option.some.injEq, Prod.mk.injEq] at htorn
    rw [htorn.2]
    exact hepoch
  · intro h order hperm
    exact takes_epoch hlive (fun b hb => Option.some.inj hb ▸ h) hperm

end

/-! ### Records of a run -/

section

variable {m : List LeaseOp} {op : LeaseOp} {key : OutboundLeaseKey} {id : UInt64}

lemma torn_snoc (m : List LeaseOp) (op : LeaseOp) :
    torn (m ++ [op]) = torn m ++ (((after m).tornDown op).map Prod.snd).toList := by
  have hfinal : Trace.final (fun s op => ((step s op).1, s.tornDown op)) start m = after m := rfl
  rw [torn, Trace.outputs_snoc, List.filterMap_append, hfinal]
  rcases (after m).tornDown op with _ | torn <;> rfl

lemma begun_snoc (m : List LeaseOp) (op : LeaseOp) :
    begun (m ++ [op]) = begun m ++ ((after m).began op).toList := by
  have hfinal : Trace.final (fun s op => ((step s op).1, s.began op)) start m = after m := rfl
  rw [begun, Trace.outputs_snoc, List.filterMap_append, hfinal]
  rcases (after m).began op with _ | entry <;> rfl

lemma lastBegun_snoc (m : List LeaseOp) (op : LeaseOp) (key : OutboundLeaseKey) :
    lastBegun (m ++ [op]) key =
      (((after m).began op).filter fun entry => entry.1 = key).elim (lastBegun m key)
        fun entry => some entry.2 := by
  rw [lastBegun, begun_snoc, List.filter_append]
  rcases hbegan : (after m).began op with _ | entry
  · simp [lastBegun]
  · by_cases hkey : entry.1 = key
    · simp [hkey, Option.filter_some]
    · simp [hkey, Option.filter_some, lastBegun]

lemma mem_begun_of_lastBegun (h : lastBegun m key = some id) : (key, id) ∈ begun m := by
  obtain ⟨entry, hentry, rfl⟩ := Option.map_eq_some_iff.mp h
  have hmem := List.mem_of_getLast? hentry
  rw [List.mem_filter, decide_eq_true_iff] at hmem
  rw [← hmem.2]
  exact hmem.1

/-- The numbers are given in turn. -/
lemma nextId_after (m : List LeaseOp) :
    (after m).nextId = UInt64.ofNat ((begun m).length + 1) ∧
      (begun m).map Prod.snd = (List.range (begun m).length).map fun i => UInt64.ofNat (i + 1) := by
  induction m using List.reverseRecOn with
  | nil => exact ⟨rfl, rfl⟩
  | append_singleton m op ih =>
    obtain ⟨hnext, hnumbers⟩ := ih
    have hstep : (after (m ++ [op])).nextId =
        (after m).nextId + if ((after m).began op).isSome then 1 else 0 := by
      rw [after, Trace.final_snoc, nextId_step]
      rfl
    rw [hstep, begun_snoc, hnext]
    rcases hbegan : (after m).began op with _ | entry
    · simp [hnumbers]
    · have hid : entry.2 = (after m).nextId := by
        cases op with
        | leaseBegin =>
          obtain rfl := Option.some.inj hbegan
          rfl
        | leaseTouch | leaseEnd | takeLease => cases hbegan
      refine ⟨?_, ?_⟩
      · simp [UInt64.ofNat_add]
      · simp [hnumbers, List.range_succ, hid, hnext]

/-- While fewer numbers are given than there are, they differ. -/
lemma distinct (h : (begun m).length ≤ 2 ^ 64) : ((begun m).map Prod.snd).Nodup := by
  rw [(nextId_after m).2]
  refine List.Nodup.map_on (fun i hi j hj hij => ?_) List.nodup_range
  rw [List.mem_range] at hi hj
  have := congrArg UInt64.toNat hij
  rw [UInt64.toNat_ofNat', UInt64.toNat_ofNat'] at this
  omega

/-- A number was given for one link. -/
lemma link_unique {key' : OutboundLeaseKey} (hn : ((begun m).map Prod.snd).Nodup)
    (h : (key, id) ∈ begun m) (h' : (key', id) ∈ begun m) : key = key' :=
  congrArg Prod.fst (List.inj_on_of_nodup_map hn h h' rfl)

/-- What the records of a run are. -/
structure Kept (m : List LeaseOp) : Prop where
  bounded : (begun m).length ≤ 2 ^ 64
  /-- A record is the one begun last for its link. -/
  held : ∀ key record, (after m).leases.lookup key = some record →
    record.linkId = key.2 ∧ lastBegun m key = some record.id
  tornBegun : ∀ record ∈ torn m, ∃ key, (key, record.id) ∈ begun m
  /-- No record has been torn down. -/
  gone : ∀ key record, (after m).leases.lookup key = some record →
    ∀ old ∈ torn m, old.id ≠ record.id
  once : ((torn m).map OutboundLease.id).Nodup

lemma begun_subset (m : List LeaseOp) (op : LeaseOp) : begun m ⊆ begun (m ++ [op]) := by
  rw [begun_snoc]
  exact List.subset_append_left _ _

lemma after_snoc (m : List LeaseOp) (op : LeaseOp) :
    after (m ++ [op]) = (step (after m) op).1 := Trace.final_snoc _ _ _ _

lemma Kept.start : Kept [] where
  bounded := by decide
  held := fun key record h => by simp [after, Leases.start] at h
  tornBegun := fun record h => by simp [torn] at h
  gone := fun key record h => by simp [after, Leases.start] at h
  once := List.nodup_nil

/-- A call keeps the records as long as numbers are left. -/
lemma Kept.snoc (h : Kept m) (hclear : Clear m op) : Kept (m ++ [op]) := by
  have hbounded : (begun (m ++ [op])).length ≤ 2 ^ 64 := by
    rw [begun_snoc, List.length_append]
    cases op with
    | leaseBegin => exact hclear
    | leaseTouch | leaseEnd | takeLease => exact h.bounded
  have hdistinct := distinct hbounded
  have hlink : ∀ {key record}, (after m).leases.lookup key = some record →
      (key, record.id) ∈ begun m := fun hlookup =>
    mem_begun_of_lastBegun (h.held _ _ hlookup).2
  -- A record begun now has a number that none had before.
  have hfresh : ∀ {key id key'}, (after m).began op = some (key, id) → (key', id) ∉ begun m := by
    intro key id key' hbegan hmem
    rw [begun_snoc, hbegan, List.map_append] at hdistinct
    exact (List.nodup_append.mp hdistinct).2.2 id (List.mem_map_of_mem hmem) id (by simp) rfl
  have htorn : ∀ record ∈ torn (m ++ [op]), record ∈ torn m ∨
      ∃ key, (after m).tornDown op = some (key, record) := by
    intro record hrecord
    rw [torn_snoc, List.mem_append, Option.mem_toList] at hrecord
    refine hrecord.imp_right fun hnow => ?_
    obtain ⟨entry, hentry, rfl⟩ := Option.map_eq_some_iff.mp hnow
    exact ⟨entry.1, hentry⟩
  refine ⟨hbounded, fun key record hlookup => ?_, fun record hrecord => ?_,
    fun key record hlookup old hold => ?_, ?_⟩
  · rw [lastBegun_snoc]
    rw [after_snoc] at hlookup
    rcases lookup_step hlookup with ⟨r, hr, hid, hlinkId, hbegan, -⟩ | ⟨hbegan, hlinkId, -⟩
    · have hnone : ((after m).began op).filter (fun entry => entry.1 = key) = none := by
        rw [Option.filter_eq_none_iff]
        intro entry hentry
        simpa [hentry] using hbegan
      rw [hnone, hlinkId, hid]
      exact h.held key r hr
    · rw [hbegan]
      simp [Option.filter_some, hlinkId]
  · rcases htorn record hrecord with hbefore | ⟨key, hnow⟩
    · obtain ⟨key, hkey⟩ := h.tornBegun record hbefore
      exact ⟨key, begun_subset m op hkey⟩
    · exact ⟨key, begun_subset m op (hlink (tornDown_some hnow).1)⟩
  · rw [after_snoc] at hlookup
    rcases lookup_step hlookup with ⟨r, hr, hid, -, -, hother⟩ | ⟨hbegan, -, hnone⟩
    · rcases htorn old hold with hbefore | ⟨k, hnow⟩
      · rw [hid]
        exact h.gone key r hr old hbefore
      · intro heq
        rw [hid] at heq
        refine hother _ hnow (link_unique (distinct h.bounded) (hlink (tornDown_some hnow).1) ?_)
        rw [heq]
        exact hlink hr
    · rcases htorn old hold with hbefore | ⟨k, hnow⟩
      · intro heq
        obtain ⟨key', hkey'⟩ := h.tornBegun old hbefore
        rw [heq] at hkey'
        exact hfresh hbegan hkey'
      · rw [hnone] at hnow
        cases hnow
  · rw [torn_snoc, List.map_append]
    rcases hnow : (after m).tornDown op with _ | ⟨k, r⟩
    · simpa using h.once
    · refine List.Nodup.append h.once (by simp) ?_
      simp only [Option.map_some, Option.toList_some, List.map_cons, List.map_nil,
        List.disjoint_singleton, List.mem_map, not_exists, not_and]
      exact fun old hold => h.gone k r (tornDown_some hnow).1 old hold

lemma kept_of_clear (h : Trace.Each Clear m) : Kept m := by
  induction m using List.reverseRecOn with
  | nil => exact Kept.start
  | append_singleton m op ih =>
    obtain ⟨hm, hclear⟩ := Trace.each_snoc.mp h
    exact (ih hm).snoc hclear

lemma begun_append (m l : List LeaseOp) : ∃ later, begun (m ++ l) = begun m ++ later := by
  induction l using List.reverseRecOn with
  | nil => exact ⟨[], by simp⟩
  | append_singleton l op ih =>
    obtain ⟨later, hlater⟩ := ih
    rw [← List.append_assoc, begun_snoc, hlater, List.append_assoc]
    exact ⟨_, rfl⟩

/-- A later record of a link is the one begun last, or one after it is. -/
lemma lastBegun_later (m : List LeaseOp) {l : List LeaseOp} {fingerprintHex address : String}
    {linkId : Option UInt64} {now : Instant}
    (hl : .leaseBegin fingerprintHex address linkId now ∈ l) :
    ∃ later id, begun (m ++ l) = begun m ++ later ∧ id ∈ later.map Prod.snd ∧
      lastBegun (m ++ l) (fingerprintHex, linkId) = some id := by
  induction l using List.reverseRecOn with
  | nil => cases hl
  | append_singleton l op ih =>
    rw [← List.append_assoc, lastBegun_snoc, begun_snoc]
    rcases hbegan : ((after (m ++ l)).began op).filter
        (fun entry => entry.1 = (fingerprintHex, linkId)) with _ | entry
    · have hbefore : .leaseBegin fingerprintHex address linkId now ∈ l := by
        rcases List.mem_append.mp hl with hbefore | hlast
        · exact hbefore
        · obtain rfl := List.mem_singleton.mp hlast
          simp [began, Option.filter_some] at hbegan
      obtain ⟨later, id, hlater, hid, hlast⟩ := ih hbefore
      refine ⟨later ++ ((after (m ++ l)).began op).toList, id, ?_, ?_, by rw [hbegan]; exact hlast⟩
      · rw [hlater, List.append_assoc]
      · rw [List.map_append]
        exact List.mem_append_left _ hid
    · obtain ⟨later, hlater⟩ := begun_append m l
      obtain ⟨hentry, -⟩ := Option.filter_eq_some_iff.mp hbegan
      refine ⟨later ++ [entry], entry.2, ?_, by simp, by rw [hbegan]; rfl⟩
      rw [hlater, hentry, List.append_assoc]
      rfl

/-- **Lease identity.** In a run that gives no number twice, and in which every record at an
address given with a live epoch is of that epoch, each teardown is that of the link it is meant
for. -/
theorem leases_identified {ops : List LeaseOp}
    (hiterates : Trace.Each (fun m op => (after m).Iterates op) ops)
    (hclear : Trace.Each Clear ops) : Identified ops where
  current := fun m fingerprintHex linkId id info hm hended => by
    obtain ⟨record, hrecord, rfl⟩ := owned_of_ended hended
    exact ((kept_of_clear (hclear.earlier hm)).held _ _ hrecord).2
  superseded := fun k l m fingerprintHex address address' linkId now now' heq hl hm => by
    have hkept := kept_of_clear (hclear.earlier hm)
    refine leaseEnd_of_not_owned ?_
    rw [Option.eq_none_iff_forall_ne_some]
    intro record hrecord
    obtain ⟨hlookup, hid⟩ := owned_eq.mp hrecord
    obtain ⟨later, id, hlater, hmem, hlast⟩ :=
      lastBegun_later (k ++ [.leaseBegin fingerprintHex address linkId now]) hl
    rw [← heq] at hlater hlast
    have hdistinct := distinct hkept.bounded
    rw [hlater, begun_snoc, List.map_append, List.map_append] at hdistinct
    have hsame := (hkept.held _ _ hlookup).2
    rw [hlast, hid, Option.some.injEq] at hsame
    rw [hsame] at hmem
    refine (List.nodup_append.mp hdistinct).2.2 (after k).nextId ?_ _ hmem rfl
    exact List.mem_append_right _ (by simp [began])
  once := (kept_of_clear hclear).once
  named := fun m epoch address order hm hlive =>
    takes_epoch hlive (fun a ha key record => by
      subst ha
      exact hclear m _ hm hlive key record) (hiterates m _ hm)

end

/-! ### Two links -/

/-- Two links to one peer, and a disconnect that names the second one. -/
def disconnected (first second : String) : List LeaseOp :=
  [.leaseBegin "ab" first (some 5) 0, .leaseBegin "ab" second (some 6) 10,
    .leaseTouch "ab" (some 5) 1 20,
    .takeLease (some 6) (some second) [("ab", some 5), ("ab", some 6)],
    .leaseEnd "ab" (some 6) 2]

lemma disconnected_iterates (first second : String) :
    Trace.Each (fun m op => (after m).Iterates op) (disconnected first second) := by
  refine Trace.each_iff_getElem.mpr fun i => ?_
  match i with
  | ⟨0, _⟩ | ⟨1, _⟩ | ⟨2, _⟩ | ⟨4, _⟩ => exact trivial
  | ⟨3, _⟩ => exact List.Perm.refl _

/-- At two addresses the disconnect takes the link that it names. -/
theorem two_addresses_identified : Trace.Each (fun m op => (after m).Iterates op)
      (disconnected "10.0.0.9:42110" "10.0.0.10:42110") ∧
    Trace.Each Clear (disconnected "10.0.0.9:42110" "10.0.0.10:42110") ∧
    Identified (disconnected "10.0.0.9:42110" "10.0.0.10:42110") := by
  have hiterates := disconnected_iterates "10.0.0.9:42110" "10.0.0.10:42110"
  have hclear : Trace.Each Clear (disconnected "10.0.0.9:42110" "10.0.0.10:42110") := by
    refine Trace.each_iff_getElem.mpr fun i => ?_
    match i with
    | ⟨0, _⟩ => exact (by decide : 0 < 2 ^ 64)
    | ⟨1, _⟩ => exact (by decide : 1 < 2 ^ 64)
    | ⟨2, _⟩ | ⟨4, _⟩ => exact trivial
    | ⟨3, _⟩ =>
      intro _ key record hlookup haddress
      set m := (disconnected "10.0.0.9:42110" "10.0.0.10:42110").take 3 with hm
      have hkeys : (after m).leases.keys = [("ab", some 5), ("ab", some 6)] := by rw [hm]; decide
      have hmem : key ∈ (after m).leases.keys :=
        AList.lookup_isSome.mp (Option.isSome_of_eq_some hlookup)
      rw [hkeys, List.mem_cons, List.mem_singleton] at hmem
      rcases hmem with rfl | rfl
      · have hfirst : (after m).leases.lookup ("ab", some 5) =
            some ⟨1, "ab", "10.0.0.9:42110", some 5, 20⟩ := by rw [hm]; decide
        obtain rfl := Option.some.inj (hfirst.symm.trans hlookup)
        exact absurd haddress (by decide)
      · have hsecond : (after m).leases.lookup ("ab", some 6) =
            some ⟨2, "ab", "10.0.0.10:42110", some 6, 10⟩ := by rw [hm]; decide
        obtain rfl := Option.some.inj (hsecond.symm.trans hlookup)
        rfl
  exact ⟨hiterates, hclear, leases_identified hiterates hclear⟩

/-- At one address it may take the other link, and its own is ended once more by the child. -/
theorem one_address_takes_other :
    Trace.Each (fun m op => (after m).Iterates op)
      (disconnected "10.0.0.9:42110" "10.0.0.9:42110") ∧
    (Trace.outputs step start (disconnected "10.0.0.9:42110" "10.0.0.9:42110")).drop 3 =
      [.taken (some ⟨"ab", "10.0.0.9:42110", some 5⟩),
        .ended (some ⟨"ab", "10.0.0.9:42110", some 6⟩)] ∧
    ¬Identified (disconnected "10.0.0.9:42110" "10.0.0.9:42110") := by
  refine ⟨disconnected_iterates _ _, by decide, fun h => ?_⟩
  have hlive : (after ((disconnected "10.0.0.9:42110" "10.0.0.9:42110").take 3)).Live 6 :=
    ⟨("ab", some 6), ⟨2, "ab", "10.0.0.9:42110", some 6, 10⟩, by decide, by decide⟩
  obtain ⟨key, record, htorn, hepoch⟩ :=
    h.named _ 6 (some "10.0.0.9:42110") [("ab", some 5), ("ab", some 6)] (by exact ⟨_, rfl⟩) hlive
  have hother : (after ((disconnected "10.0.0.9:42110" "10.0.0.9:42110").take 3)).tornDown
      (.takeLease (some 6) (some "10.0.0.9:42110") [("ab", some 5), ("ab", some 6)]) =
        some (("ab", some 5), ⟨1, "ab", "10.0.0.9:42110", some 5, 20⟩) := by decide
  rw [hother, Option.some.injEq, Prod.mk.injEq] at htorn
  rw [← htorn.2] at hepoch
  exact absurd hepoch (by decide)

end Leases

end TheKvm

import TheKvm.Core.Router
import TheKvm.Lib.Totals
import TheKvm.Lib.Trace

/-!
The yield of a drive to inbound input: the registries of inbound links, the poller that reads
their counters into a cache, and the probe that compares the cache with its baseline.
-/

namespace TheKvm

/-! ### Registries -/

structure InboundLink where
  id : ℕ
  fingerprintHex : String
  inputEvents : ℕ
  driving : Bool
  /-- In milliseconds of the daemon's clock; `none` is `NO_INPUT_YET`. -/
  lastInput : Option ℕ

structure ActiveSession where
  fingerprintHex : String
  inputEvents : ℕ
  driving : Bool
  lastInputAgeMs : Option ℕ

/-- The live links of one daemon, one for a fingerprint. -/
structure LinkRegistry where
  nextId : ℕ
  links : List InboundLink

namespace LinkRegistry

/-- `register_inbound_link`: a new link replaces the old one of its peer. -/
def register (r : LinkRegistry) (fingerprintHex : String) : LinkRegistry where
  nextId := r.nextId + 1
  links := r.links.filter (·.fingerprintHex ≠ fingerprintHex) ++
    [⟨r.nextId, fingerprintHex, 0, false, none⟩]

def unregister (r : LinkRegistry) (fingerprintHex : String) (id : ℕ) : LinkRegistry :=
  { r with links := r.links.filter fun link => ¬(link.fingerprintHex = fingerprintHex ∧
      link.id = id) }

/-- A session reaches its counters only while the registry has its link. -/
def modify (r : LinkRegistry) (fingerprintHex : String) (id : ℕ)
    (f : InboundLink → InboundLink) : LinkRegistry :=
  { r with links := r.links.map fun link =>
      if link.fingerprintHex = fingerprintHex ∧ link.id = id then f link else link }

def list (r : LinkRegistry) (now : ℕ) : List ActiveSession :=
  r.links.map fun link =>
    ⟨link.fingerprintHex, link.inputEvents, link.driving, link.lastInput.map (now - ·)⟩

end LinkRegistry

/-- A `u64` counter wraps. -/
def noteInboundActivity (now : ℕ) (link : InboundLink) : InboundLink :=
  { link with inputEvents := (link.inputEvents + 1) % 2 ^ 64, lastInput := some now }

/-! ### The poller -/

structure InboundSnapshot where
  totals : Totals String
  driving : List String

def peerDriveFreshMs : ℕ := 2500

def peerDriveIsActive (driving : Bool) (lastInputAgeMs : Option ℕ) : Bool :=
  driving && lastInputAgeMs.any fun age => age ≤ peerDriveFreshMs

/-- One session of a status merged into a snapshot. -/
def InboundSnapshot.merge (snapshot : InboundSnapshot) (session : ActiveSession) :
    InboundSnapshot where
  totals := snapshot.totals.raise session.fingerprintHex session.inputEvents
  driving :=
    if peerDriveIsActive session.driving session.lastInputAgeMs then
      snapshot.driving.insert session.fingerprintHex
    else snapshot.driving

/-- A `snapshot_inbound_inputs` that has still to ask these daemons. -/
structure InboundPoll where
  candidates : List ℕ
  snapshot : InboundSnapshot

/-! ### The probe -/

/-- `saturating_add` of `u64`. -/
def saturatingAdd (a b : ℕ) : ℕ := min (a + b) (2 ^ 64 - 1)

def countGrowth (s : Totals String × ℕ) (entry : Sigma fun _ : String => ℕ) : Totals String × ℕ :=
  (s.1.insert entry.1 entry.2,
    match s.1.lookup entry.1 with
    | some previous =>
      if previous < entry.2 then saturatingAdd s.2 (entry.2 - previous) else s.2
    | none => s.2)

/-- The refreshed baseline and the growth over the old one. -/
def inboundInputsGrowth (baseline current : Totals String) : Totals String × ℕ :=
  current.entries.foldl countGrowth (baseline, 0)

def inboundSettleMs : ℕ := 1000

def inboundSettleBurst : ℕ := 20

def inboundHotDriveBurst : ℕ := 10

def outboundHotMs : ℕ := 500

def inboundYieldMinGrowth : ℕ := 5

def inboundAbsorbThreshold (openForMs : ℕ) (outboundHot : Bool) : ℕ :=
  if openForMs < inboundSettleMs then inboundSettleBurst
  else if outboundHot then inboundHotDriveBurst
  else 0

def inboundYieldFires (growth : ℕ) (peerDriving : Bool) : Bool :=
  inboundYieldMinGrowth ≤ growth || (0 < growth && peerDriving)

/-! ### The whole -/

/-- The daemons whose links a drive task polls, its poller and its own state. -/
structure YieldState where
  daemons : ℕ → LinkRegistry
  poll : Option InboundPoll
  cache : InboundSnapshot
  /-- A drive is open. -/
  active : Bool
  baseline : Totals String
  baselinesFresh : Bool
  lastTransfer : Option Instant
  lastYield : Option Instant
  lastOutboundInput : Option Instant
  lastInboundGrowthAt : Option Instant
  /-- The peers of the input events since the drive opened. -/
  received : List String

inductive YieldOp
  | register (daemon : ℕ) (fingerprintHex : String)
  | unregister (daemon : ℕ) (fingerprintHex : String) (id : ℕ)
  /-- an input frame, or a handoff, which counts as one -/
  | input (daemon : ℕ) (fingerprintHex : String) (id now : ℕ)
  | setDriving (daemon : ℕ) (fingerprintHex : String) (id : ℕ) (driving : Bool)
  | pollBegin
  /-- the next endpoint answers -/
  | pollAnswer (now : ℕ)
  /-- the next endpoint times out -/
  | pollSilence
  | pollEnd
  | edgePush (now : Instant)
  | continuedHandoff
  /-- the drive goes home or is lost; the former is a transfer -/
  | close (transfer : Option Instant)
  | outbound (now : Instant)
  | probe (now : Instant)

/-- What a probe acts on, and whether it yields. -/
structure YieldReport where
  growth : ℕ
  yields : Bool

namespace YieldState

/-- A drive task starts next to the given registries. -/
def start (daemons : ℕ → LinkRegistry) : YieldState :=
  ⟨daemons, none, ⟨∅, []⟩, false, ∅, true, none, none, none, none, []⟩

def update (s : YieldState) (daemon : ℕ) (f : LinkRegistry → LinkRegistry) : YieldState :=
  { s with daemons := Function.update s.daemons daemon (f (s.daemons daemon)) }

def openForMs (s : YieldState) (now : Instant) : ℕ :=
  s.lastTransfer.elim (2 ^ 64 - 1) fun since => min (elapsed now since / 1000000) (2 ^ 64 - 1)

def outboundHot (s : YieldState) (now : Instant) : Bool :=
  s.lastOutboundInput.any fun since => elapsed now since < Duration.fromMillis outboundHotMs

/-- The first probe of a drive only records. -/
def measure (s : YieldState) : Totals String × ℕ :=
  if s.baselinesFresh then inboundInputsGrowth s.baseline s.cache.totals
  else (s.cache.totals, 0)

/-- What every probe writes down. -/
def record (s : YieldState) (now : Instant) : YieldState :=
  { s with
    baseline := s.measure.1
    baselinesFresh := true
    lastInboundGrowthAt := if 0 < s.measure.2 then some now else s.lastInboundGrowthAt }

/-- `probe_inbound_yield`. -/
def probe (s : YieldState) (now : Instant) : YieldState × YieldReport :=
  let growth := s.measure.2
  let s := s.record now
  if growth < inboundAbsorbThreshold (s.openForMs now) (s.outboundHot now) then (s, ⟨growth, false⟩)
  else if inboundYieldFires growth (s.cache.driving ≠ []) then
    ({ s with active := false, lastTransfer := some now, lastYield := some now }, ⟨growth, true⟩)
  else (s, ⟨growth, false⟩)

def step (dirs : List ℕ) (s : YieldState) : YieldOp → YieldState × Option YieldReport
  | .register daemon fingerprintHex => (s.update daemon (·.register fingerprintHex), none)
  | .unregister daemon fingerprintHex id => (s.update daemon (·.unregister fingerprintHex id), none)
  | .input daemon fingerprintHex id now =>
    ({ s.update daemon (·.modify fingerprintHex id (noteInboundActivity now)) with
        received := fingerprintHex :: s.received }, none)
  | .setDriving daemon fingerprintHex id driving =>
    (s.update daemon (·.modify fingerprintHex id fun link => { link with driving }), none)
  | .pollBegin => ({ s with poll := s.poll.or (some ⟨dirs, ⟨∅, []⟩⟩) }, none)
  | .pollAnswer now =>
    match s.poll with
    | some ⟨daemon :: candidates, snapshot⟩ =>
      ({ s with
          poll := some ⟨candidates,
            ((s.daemons daemon).list now).foldl InboundSnapshot.merge snapshot⟩ }, none)
    | _ => (s, none)
  | .pollSilence =>
    match s.poll with
    | some ⟨_ :: candidates, snapshot⟩ => ({ s with poll := some ⟨candidates, snapshot⟩ }, none)
    | _ => (s, none)
  | .pollEnd =>
    match s.poll with
    | some ⟨[], snapshot⟩ => ({ s with poll := none, cache := snapshot }, none)
    | _ => (s, none)
  | .edgePush now =>
    ({ s with active := true, lastTransfer := some now, baselinesFresh := false, received := [] },
      none)
  | .continuedHandoff =>
    if s.active then ({ s with received := [] }, none) else (s, none)
  | .close transfer =>
    ({ s with active := false, lastTransfer := transfer.or s.lastTransfer }, none)
  | .outbound now => ({ s with lastOutboundInput := some now }, none)
  | .probe now =>
    if s.active then
      let (s, report) := s.probe now
      (s, some report)
    else (s, none)

def after (dirs : List ℕ) (daemons : ℕ → LinkRegistry) (ops : List YieldOp) : YieldState :=
  Trace.final (step dirs) (start daemons) ops

/-! ### What the probe may act on -/

/-- A count that a poll may still report. -/
def Reports (dirs : List ℕ) (s : YieldState) (fingerprintHex : String) (count : ℕ) : Prop :=
  (∃ daemon ∈ dirs, ∃ link ∈ (s.daemons daemon).links,
      link.fingerprintHex = fingerprintHex ∧ link.inputEvents = count) ∨
    ∃ poll, s.poll = some poll ∧ poll.snapshot.totals.lookup fingerprintHex = some count

/-- A count that a probe may still read. -/
def Readable (dirs : List ℕ) (s : YieldState) (fingerprintHex : String) (count : ℕ) : Prop :=
  s.Reports dirs fingerprintHex count ∨ s.cache.totals.lookup fingerprintHex = some count

/-- The growth comes from input of this drive, and without any the drive goes on. -/
def Honest (dirs : List ℕ) (s : YieldState) (op : YieldOp) : Prop :=
  ∀ report, (s.step dirs op).2 = some report →
    report.growth ≤ s.received.length ∧ (s.received = [] → report.yields = false)

/-- The totals that a probe adopts are as new as the drive, and a continued handoff does not
open a drive over a baseline that is behind. -/
def Rebased (dirs : List ℕ) (s : YieldState) : YieldOp → Prop
  | .probe _ => s.active = true → ∀ fingerprintHex count, s.Reports dirs fingerprintHex count →
      s.cache.totals.Covers s.received fingerprintHex count
  | .continuedHandoff => s.active = true → s.baselinesFresh = true →
      ∀ fingerprintHex count, s.Readable dirs fingerprintHex count →
        s.baseline.Covers [] fingerprintHex count
  | _ => True

/-- What holds between probes. -/
structure Covered (dirs : List ℕ) (s : YieldState) : Prop where
  polled : ∀ poll, s.poll = some poll → poll.candidates ⊆ dirs
  covers : s.active = true → s.baselinesFresh = true → ∀ fingerprintHex count,
    s.Readable dirs fingerprintHex count → s.baseline.Covers s.received fingerprintHex count

end YieldState

/-! ### Growth -/

lemma countGrowth_foldl (entries : List (Sigma fun _ : String => ℕ))
    (h : (entries.map Sigma.fst).Nodup) (baseline : Totals String) (growth : ℕ) :
    (∀ k, (entries.foldl countGrowth (baseline, growth)).1.lookup k =
        (entries.dlookup k).or (baseline.lookup k)) ∧
      (entries.foldl countGrowth (baseline, growth)).2 ≤
        growth + (entries.map fun e => Totals.grown (baseline.lookup e.1) e.2).sum := by
  induction entries generalizing baseline growth with
  | nil => exact ⟨fun k => rfl, le_rfl⟩
  | cons e entries ih =>
    rw [List.map_cons, List.nodup_cons] at h
    obtain ⟨hnew, h⟩ := h
    obtain ⟨hlookup, hgrowth⟩ := ih h (baseline.insert e.1 e.2) (countGrowth (baseline, growth) e).2
    rw [List.foldl_cons]
    refine ⟨fun k => (hlookup k).trans ?_, ?_⟩
    · by_cases hk : k = e.1
      · subst hk
        have hnone : entries.dlookup e.1 = none := List.dlookup_eq_none.mpr hnew
        rw [hnone, AList.lookup_insert, List.dlookup_cons_eq]
        rfl
      · rw [AList.lookup_insert_ne hk, List.dlookup_cons_ne _ _ hk]
    · have hrest : (entries.map fun e' =>
          Totals.grown ((baseline.insert e.1 e.2).lookup e'.1) e'.2) =
          entries.map fun e' => Totals.grown (baseline.lookup e'.1) e'.2 := by
        refine List.map_congr_left fun e' he' => ?_
        have hne : e'.1 ≠ e.1 := fun heq => hnew (heq ▸ List.mem_map_of_mem he')
        rw [AList.lookup_insert_ne hne]
      have hone : (countGrowth (baseline, growth) e).2 ≤
          growth + Totals.grown (baseline.lookup e.1) e.2 := by
        simp only [countGrowth, Totals.grown]
        rcases baseline.lookup e.1 with _ | previous
        · exact le_rfl
        · simp only [Option.elim_some, saturatingAdd]
          split_ifs <;> omega
      calc (entries.foldl countGrowth (countGrowth (baseline, growth) e)).2
          ≤ (countGrowth (baseline, growth) e).2 +
            (entries.map fun e' => Totals.grown ((baseline.insert e.1 e.2).lookup e'.1) e'.2).sum :=
              hgrowth
        _ ≤ growth + Totals.grown (baseline.lookup e.1) e.2 +
            (entries.map fun e' => Totals.grown (baseline.lookup e'.1) e'.2).sum := by
          rw [hrest]
          exact Nat.add_le_add_right hone _
        _ = growth + ((e :: entries).map fun e' =>
            Totals.grown (baseline.lookup e'.1) e'.2).sum := by
          rw [List.map_cons, List.sum_cons, Nat.add_assoc]

/-- The refreshed baseline keeps what the cache misses. -/
lemma inboundInputsGrowth_lookup (baseline current : Totals String) (k : String) :
    (inboundInputsGrowth baseline current).1.lookup k = (current ∪ baseline).lookup k := by
  rw [inboundInputsGrowth, (countGrowth_foldl _ current.nodupKeys baseline 0).1]
  by_cases hk : k ∈ current
  · rw [AList.lookup_union_left hk]
    obtain ⟨v, hv⟩ := Option.isSome_iff_exists.mp (AList.lookup_isSome.mpr hk)
    have hv' : current.entries.dlookup k = some v := hv
    rw [hv', hv, Option.some_or]
  · rw [AList.lookup_union_right hk]
    have hnone : current.entries.dlookup k = none := AList.lookup_eq_none.mpr hk
    rw [hnone, Option.none_or]

lemma inboundInputsGrowth_le (baseline current : Totals String) :
    (inboundInputsGrowth baseline current).2 ≤ Totals.rise baseline current := by
  have h := (countGrowth_foldl _ current.nodupKeys baseline 0).2
  rwa [Nat.zero_add] at h

/-! ### One step -/

/-- Whether an operation leaves the drive, its input and its baseline alone. -/
def YieldOp.quiet : YieldOp → Bool
  | .input .. | .edgePush _ | .continuedHandoff | .close _ | .probe _ => false
  | _ => true

namespace YieldState

variable {dirs : List ℕ} {s : YieldState} {fingerprintHex : String} {count : ℕ} {op : YieldOp}

/-- An operation on a registry brings in its links only. -/
lemma readable_update (daemon : ℕ) (f : LinkRegistry → LinkRegistry)
    (h : (s.update daemon f).Readable dirs fingerprintHex count) :
    s.Readable dirs fingerprintHex count ∨
      daemon ∈ dirs ∧ ∃ link ∈ (f (s.daemons daemon)).links,
        link.fingerprintHex = fingerprintHex ∧ link.inputEvents = count := by
  have hdaemons : (s.update daemon f).daemons =
      Function.update s.daemons daemon (f (s.daemons daemon)) := rfl
  rcases h with (⟨daemon', hdir, link, hlink, hcount⟩ | hpoll) | hcache
  · by_cases hd : daemon' = daemon
    · subst hd
      rw [hdaemons, Function.update_self] at hlink
      exact Or.inr ⟨hdir, link, hlink, hcount⟩
    · rw [hdaemons, Function.update_of_ne hd] at hlink
      exact Or.inl (Or.inl (Or.inl ⟨daemon', hdir, link, hlink, hcount⟩))
  · exact Or.inl (Or.inl (Or.inr hpoll))
  · exact Or.inl (Or.inr hcache)

lemma readable_of_link {daemon : ℕ} (hdir : daemon ∈ dirs) {link : InboundLink}
    (hlink : link ∈ (s.daemons daemon).links) :
    s.Readable dirs link.fingerprintHex link.inputEvents :=
  Or.inl (Or.inl ⟨daemon, hdir, link, hlink, rfl, rfl⟩)

/-- A merged status holds what was merged before, and counts of the daemon. -/
lemma merge_cases (links : List InboundLink) (now : ℕ) (snapshot : InboundSnapshot)
    (h : (((LinkRegistry.mk 0 links).list now).foldl InboundSnapshot.merge snapshot).totals.lookup
      fingerprintHex = some count) :
    snapshot.totals.lookup fingerprintHex = some count ∨
      ∃ link ∈ links, link.fingerprintHex = fingerprintHex ∧ link.inputEvents = count := by
  induction links generalizing snapshot with
  | nil => exact Or.inl h
  | cons link links ih =>
    rcases ih _ h with hmerged | ⟨link', hlink', hcount⟩
    · rcases Totals.raise_cases hmerged with hold | ⟨rfl, rfl⟩
      · exact Or.inl hold
      · exact Or.inr ⟨link, List.mem_cons_self, rfl, rfl⟩
    · exact Or.inr ⟨link', List.mem_cons_of_mem _ hlink', hcount⟩

lemma step_quiet (h : op.quiet = true) :
    (s.step dirs op).1.active = s.active ∧
      (s.step dirs op).1.baselinesFresh = s.baselinesFresh ∧
      (s.step dirs op).1.baseline = s.baseline ∧ (s.step dirs op).1.received = s.received := by
  cases op with
  | input daemon peer id now => cases h
  | edgePush now => cases h
  | continuedHandoff => cases h
  | close transfer => cases h
  | probe now => cases h
  | pollAnswer now =>
    simp only [step]
    split <;> exact ⟨rfl, rfl, rfl, rfl⟩
  | pollSilence =>
    simp only [step]
    split <;> exact ⟨rfl, rfl, rfl, rfl⟩
  | pollEnd =>
    simp only [step]
    split <;> exact ⟨rfl, rfl, rfl, rfl⟩
  | _ => exact ⟨rfl, rfl, rfl, rfl⟩

lemma probe_keeps (s : YieldState) (now : Instant) :
    (s.probe now).1.daemons = s.daemons ∧ (s.probe now).1.poll = s.poll ∧
      (s.probe now).1.cache = s.cache ∧ (s.probe now).1.received = s.received ∧
      (s.probe now).1.baseline = s.measure.1 ∧ (s.probe now).2.growth = s.measure.2 := by
  simp only [probe]
  split
  · exact ⟨rfl, rfl, rfl, rfl, rfl, rfl⟩
  · split <;> exact ⟨rfl, rfl, rfl, rfl, rfl, rfl⟩

lemma probe_yields {now : Instant} (h : s.measure.2 = 0) : (s.probe now).2.yields = false := by
  simp only [probe, h]
  split
  · rfl
  · rfl

/-- A probe only looks. -/
lemma readable_probe (s : YieldState) (now : Instant) :
    (s.probe now).1.Readable dirs fingerprintHex count ↔ s.Readable dirs fingerprintHex count := by
  obtain ⟨hdaemons, hpoll, hcache, -⟩ := probe_keeps s now
  rw [Readable, Reports, hdaemons, hpoll, hcache]
  rfl

/-- A session's link read after an update of it. -/
lemma readable_modify (daemon : ℕ) (peer : String) (id : ℕ) (f : InboundLink → InboundLink)
    (h : (s.update daemon (·.modify peer id f)).Readable dirs fingerprintHex count) :
    s.Readable dirs fingerprintHex count ∨
      ∃ link, s.Readable dirs link.fingerprintHex link.inputEvents ∧ link.fingerprintHex = peer ∧
        (f link).fingerprintHex = fingerprintHex ∧ (f link).inputEvents = count := by
  rcases readable_update daemon (·.modify peer id f) h with hold | ⟨hdir, link, hlink, rfl, rfl⟩
  · exact Or.inl hold
  obtain ⟨link', hlink', rfl⟩ := List.mem_map.mp hlink
  have hbefore := readable_of_link hdir hlink'
  split_ifs with hsession
  · exact Or.inr ⟨link', hbefore, hsession.1, rfl, rfl⟩
  · exact Or.inl hbefore

/-- A poll begins with nothing merged. -/
lemma readable_pollBegin (h : (s.step dirs .pollBegin).1.Readable dirs fingerprintHex count) :
    s.Readable dirs fingerprintHex count := by
  rcases hpoll : s.poll with _ | poll
  · rcases h with (hlink | ⟨poll, hbegin, hlookup⟩) | hcache
    · exact Or.inl (Or.inl hlink)
    · simp only [step, hpoll, Option.none_or, Option.some.injEq] at hbegin
      rw [← hbegin] at hlookup
      cases hlookup
    · exact Or.inr hcache
  · have hsame : (s.step dirs .pollBegin).1 = s := by
      simp only [step, hpoll, Option.some_or]
      rw [← hpoll]
    rwa [hsame] at h

/-- An answer brings in the links of a polled daemon. -/
lemma readable_pollAnswer (hpolled : ∀ poll, s.poll = some poll → poll.candidates ⊆ dirs)
    {now : ℕ} (h : (s.step dirs (.pollAnswer now)).1.Readable dirs fingerprintHex count) :
    s.Readable dirs fingerprintHex count := by
  simp only [step] at h
  split at h
  next daemon candidates snapshot hpoll =>
    rcases h with (hlink | ⟨poll, heq, hlookup⟩) | hcache
    · exact Or.inl (Or.inl hlink)
    · obtain rfl := Option.some.inj heq
      rcases merge_cases (s.daemons daemon).links now snapshot hlookup
        with hold | ⟨link, hlink, rfl, rfl⟩
      · exact Or.inl (Or.inr ⟨_, hpoll, hold⟩)
      · exact readable_of_link (hpolled _ hpoll List.mem_cons_self) hlink
    · exact Or.inr hcache
  next => exact h

lemma readable_pollSilence (h : (s.step dirs .pollSilence).1.Readable dirs fingerprintHex count) :
    s.Readable dirs fingerprintHex count := by
  simp only [step] at h
  split at h
  next daemon candidates snapshot hpoll =>
    rcases h with (hlink | ⟨poll, heq, hlookup⟩) | hcache
    · exact Or.inl (Or.inl hlink)
    · obtain rfl := Option.some.inj heq
      exact Or.inl (Or.inr ⟨_, hpoll, hlookup⟩)
    · exact Or.inr hcache
  next => exact h

lemma readable_pollEnd (h : (s.step dirs .pollEnd).1.Readable dirs fingerprintHex count) :
    s.Readable dirs fingerprintHex count := by
  simp only [step] at h
  split at h
  next snapshot hpoll =>
    rcases h with (hlink | ⟨poll, heq, -⟩) | hcache
    · exact Or.inl (Or.inl hlink)
    · cases heq
    · exact Or.inl (Or.inr ⟨_, hpoll, hcache⟩)
  next => exact h

/-- An operation makes nothing readable but zero, and one more for an input event. -/
lemma readable_step (hpolled : ∀ poll, s.poll = some poll → poll.candidates ⊆ dirs)
    (h : (s.step dirs op).1.Readable dirs fingerprintHex count) :
    count = 0 ∨ s.Readable dirs fingerprintHex count ∨
      ∃ daemon id now, op = .input daemon fingerprintHex id now ∧
        ∃ before, s.Readable dirs fingerprintHex before ∧ count ≤ before + 1 := by
  cases op with
  | register daemon peer =>
    rcases readable_update daemon (·.register peer) h with hold | ⟨hdir, link, hlink, rfl, rfl⟩
    · exact Or.inr (Or.inl hold)
    rcases List.mem_append.mp hlink with hlink | hlink
    · exact Or.inr (Or.inl (readable_of_link hdir (List.mem_of_mem_filter hlink)))
    · rw [List.mem_singleton.mp hlink]
      exact Or.inl rfl
  | unregister daemon peer id =>
    rcases readable_update daemon (·.unregister peer id) h with hold | ⟨hdir, link, hlink, rfl, rfl⟩
    · exact Or.inr (Or.inl hold)
    · exact Or.inr (Or.inl (readable_of_link hdir (List.mem_of_mem_filter hlink)))
  | input daemon peer id now =>
    rcases readable_modify daemon peer id (noteInboundActivity now) h
      with hold | ⟨link, hbefore, rfl, rfl, rfl⟩
    · exact Or.inr (Or.inl hold)
    · exact Or.inr (Or.inr ⟨daemon, id, now, rfl, _, hbefore, Nat.mod_le _ _⟩)
  | setDriving daemon peer id driving =>
    rcases readable_modify daemon peer id (fun link => { link with driving }) h
      with hold | ⟨link, hbefore, rfl, rfl, rfl⟩
    · exact Or.inr (Or.inl hold)
    · exact Or.inr (Or.inl hbefore)
  | pollBegin => exact Or.inr (Or.inl (readable_pollBegin h))
  | pollAnswer now => exact Or.inr (Or.inl (readable_pollAnswer hpolled h))
  | pollSilence => exact Or.inr (Or.inl (readable_pollSilence h))
  | pollEnd => exact Or.inr (Or.inl (readable_pollEnd h))
  | edgePush now => exact Or.inr (Or.inl h)
  | continuedHandoff =>
    simp only [step] at h
    split at h <;> exact Or.inr (Or.inl h)
  | close transfer => exact Or.inr (Or.inl h)
  | outbound now => exact Or.inr (Or.inl h)
  | probe now =>
    right
    left
    simp only [step] at h
    split at h
    · exact (readable_probe s now).mp h
    · exact h

namespace Covered

/-- The cache does not rise over the baseline by more than the input of the drive. -/
lemma honest (h : s.Covered dirs) : s.Honest dirs op := by
  intro report hreport
  cases op with
  | probe now =>
    simp only [step] at hreport
    split at hreport
    next hactive =>
      obtain rfl := Option.some.inj hreport
      have hgrowth : s.measure.2 ≤ s.received.length := by
        rw [measure]
        split
        next hfresh =>
          calc (inboundInputsGrowth s.baseline s.cache.totals).2
              ≤ Totals.rise s.baseline s.cache.totals := inboundInputsGrowth_le _ _
            _ ≤ s.received.length := Totals.rise_le fun peer count hcache =>
              h.covers hactive hfresh peer count (Or.inr hcache)
        next => exact Nat.zero_le _
      refine ⟨?_, fun hnone => probe_yields ?_⟩
      · rwa [(probe_keeps s now).2.2.2.2.2]
      · rw [hnone] at hgrowth
        exact Nat.le_zero.mp hgrowth
    next => cases hreport
  | pollAnswer now =>
    simp only [step] at hreport
    split at hreport <;> cases hreport
  | pollSilence =>
    simp only [step] at hreport
    split at hreport <;> cases hreport
  | pollEnd =>
    simp only [step] at hreport
    split at hreport <;> cases hreport
  | continuedHandoff =>
    simp only [step] at hreport
    split at hreport <;> cases hreport
  | _ => cases hreport

lemma polled_step (h : s.Covered dirs) (op : YieldOp) (poll : InboundPoll)
    (hpoll : (s.step dirs op).1.poll = some poll) : poll.candidates ⊆ dirs := by
  cases op with
  | pollBegin =>
    simp only [step] at hpoll
    rcases hold : s.poll with _ | old
    · rw [hold, Option.none_or] at hpoll
      rw [← Option.some.inj hpoll]
      exact List.Subset.refl dirs
    · rw [hold, Option.some_or] at hpoll
      rw [← Option.some.inj hpoll]
      exact h.polled old hold
  | pollAnswer now =>
    simp only [step] at hpoll
    split at hpoll
    next hold =>
      rw [← Option.some.inj hpoll]
      exact fun daemon hdaemon => h.polled _ hold (List.mem_cons_of_mem _ hdaemon)
    next => exact h.polled poll hpoll
  | pollSilence =>
    simp only [step] at hpoll
    split at hpoll
    next hold =>
      rw [← Option.some.inj hpoll]
      exact fun daemon hdaemon => h.polled _ hold (List.mem_cons_of_mem _ hdaemon)
    next => exact h.polled poll hpoll
  | pollEnd =>
    simp only [step] at hpoll
    split at hpoll
    next => cases hpoll
    next => exact h.polled poll hpoll
  | continuedHandoff =>
    simp only [step] at hpoll
    split at hpoll <;> exact h.polled poll hpoll
  | probe now =>
    simp only [step] at hpoll
    split at hpoll
    · rw [(probe_keeps s now).2.1] at hpoll
      exact h.polled poll hpoll
    · exact h.polled poll hpoll
  | _ => exact h.polled poll hpoll

/-- A probe adopts totals that cover what the next one may read. -/
lemma probe_covers (h : s.Covered dirs) {now : Instant} (hre : s.Rebased dirs (.probe now))
    (hactive : s.active = true) (hread : s.Readable dirs fingerprintHex count) :
    (s.probe now).1.baseline.Covers (s.probe now).1.received fingerprintHex count := by
  obtain ⟨-, -, -, hreceived, hbaseline, -⟩ := probe_keeps s now
  have hcache : s.cache.totals.Covers s.received fingerprintHex count := by
    rcases hread with hreports | hcache
    · exact hre hactive fingerprintHex count hreports
    · exact Totals.covers_of_lookup hcache
  rw [hbaseline, hreceived, measure]
  split
  next hfresh =>
    intro b hb
    rw [inboundInputsGrowth_lookup] at hb
    exact hcache.union (h.covers hactive hfresh fingerprintHex count hread) b hb
  next => exact hcache

/-- What can be read after an operation that is no opening and no probe. -/
lemma covers_of_readable (h : s.Covered dirs) (hactive : s.active = true)
    (hfresh : s.baselinesFresh = true)
    (hread : count = 0 ∨ s.Readable dirs fingerprintHex count) :
    s.baseline.Covers s.received fingerprintHex count := by
  rcases hread with rfl | hread
  · exact fun b _ => Nat.zero_le _
  · exact h.covers hactive hfresh fingerprintHex count hread

lemma step (h : s.Covered dirs) (hre : s.Rebased dirs op) : (s.step dirs op).1.Covered dirs := by
  refine ⟨h.polled_step op, fun hactive hfresh peer count hread => ?_⟩
  have hcases := readable_step h.polled hread
  rcases hop : op.quiet
  · cases op with
    | input daemon peer' id now =>
      rcases hcases with hzero | hold | ⟨_, _, _, heq, before, hbefore, hle⟩
      · exact (h.covers_of_readable hactive hfresh (Or.inl hzero)).later peer'
      · exact (h.covers_of_readable hactive hfresh (Or.inr hold)).later peer'
      · cases heq
        exact (h.covers hactive hfresh peer before hbefore).succ.anti hle
    | edgePush now => cases hfresh
    | continuedHandoff =>
      by_cases hopen : s.active = true
      · simp only [YieldState.step, if_pos hopen] at hfresh hread ⊢
        exact hre hopen hfresh peer count hread
      · simp only [YieldState.step, if_neg hopen] at hactive
        exact absurd hactive hopen
    | close transfer => cases hactive
    | probe now =>
      by_cases hopen : s.active = true
      · simp only [YieldState.step, if_pos hopen] at hread ⊢
        exact h.probe_covers hre hopen ((readable_probe s now).mp hread)
      · simp only [YieldState.step, if_neg hopen] at hactive
        exact absurd hactive hopen
    | _ => cases hop
  · obtain ⟨hactive', hfresh', hbaseline, hreceived⟩ := step_quiet hop
    rw [hactive'] at hactive
    rw [hfresh'] at hfresh
    rw [hbaseline, hreceived]
    refine h.covers_of_readable hactive hfresh (hcases.imp_right fun hread => ?_)
    rcases hread with hold | ⟨_, _, _, rfl, -⟩
    · exact hold
    · cases hop

end Covered

lemma covered_start (daemons : ℕ → LinkRegistry) : (start daemons).Covered dirs := by
  refine ⟨fun poll hpoll => ?_, fun hactive _ => ?_⟩
  · cases hpoll
  · cases hactive

/-! ### Runs -/

/-- **A probe acts on input of this drive only**, in every run whose probes adopt totals as new as
their drive and whose continued handoffs do not open a drive over a baseline that is behind. -/
theorem honest_of_rebased (dirs : List ℕ) (daemons : ℕ → LinkRegistry) (ops : List YieldOp)
    (h : Trace.Each (fun past op => (after dirs daemons past).Rebased dirs op) ops) :
    Trace.Each (fun past op => (after dirs daemons past).Honest dirs op) ops := by
  intro past op hpast
  have hcovered : (after dirs daemons past).Covered dirs := by
    refine Trace.invariant (I := fun _ (s : YieldState) => s.Covered dirs)
      (covered_start daemons) ?_ (h.earlier hpast)
    exact fun _ _ hc hre => hc.step hre
  exact hcovered.honest

/-- An endpoint that has one link, of a peer that moved before the drive opened and moves on. -/
theorem honest_onePeer :
    let daemons : ℕ → LinkRegistry := fun _ => ⟨1, [⟨0, "peer", 7, false, some 0⟩]⟩
    Trace.Each (fun past op => (after [0] daemons past).Honest [0] op)
      [.pollBegin, .pollAnswer 1, .pollEnd, .edgePush 0, .probe 300000000] := by
  refine honest_of_rebased [0] _ _ (Trace.each_snoc (l := [_, _, _, _]).mpr ⟨?_, ?_⟩)
  · refine Trace.each_snoc (l := [_, _, _]).mpr ⟨?_, trivial⟩
    refine Trace.each_snoc (l := [_, _]).mpr ⟨?_, trivial⟩
    exact Trace.each_snoc (l := [_]).mpr ⟨Trace.each_singleton.mpr trivial, trivial⟩
  · intro _ peer count hreports
    rcases hreports with ⟨daemon, -, link, hlink, rfl, rfl⟩ | ⟨poll, hpoll, -⟩
    · rw [List.mem_singleton.mp hlink]
      exact Totals.covers_of_lookup rfl
    · cases hpoll

/-- Five events, a handoff continued to the next peer, and a poll and a probe after it. -/
theorem continued_drive_yields : ¬∀ (dirs : List ℕ) (daemons : ℕ → LinkRegistry)
    (ops : List YieldOp), Trace.Each (fun past op => (after dirs daemons past).Honest dirs op)
      ops := by
  intro h
  have hprobe := h [0] (fun _ => ⟨1, [⟨0, "peer", 0, false, none⟩]⟩)
    [.pollBegin, .pollAnswer 1, .pollEnd, .edgePush 0, .probe 300000000, .input 0 "peer" 0 400,
      .input 0 "peer" 0 410, .input 0 "peer" 0 420, .input 0 "peer" 0 430, .input 0 "peer" 0 440,
      .continuedHandoff, .pollBegin, .pollAnswer 500, .pollEnd, .probe 2000000000]
  obtain ⟨-, hlast⟩ := Trace.each_snoc (l := [_, _, _, _, _, _, _, _, _, _, _, _, _, _]).mp hprobe
  have hyields := (hlast ⟨5, true⟩ (by rfl)).2 rfl
  cases hyields

end YieldState

end TheKvm

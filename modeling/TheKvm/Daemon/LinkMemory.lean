import TheKvm.Daemon.Freeze
import TheKvm.Lib.Expiring
import TheKvm.Lib.Latch

/-!
What the link approvals remember.

A link passes silently if its epoch was allowed within a day or its device was paired within two
minutes. Both are to be forgotten when the device is hung up on or unpaired, and the allowed
epochs are to be remembered up to a cap.
-/

namespace TheKvm.Approvals

/-! ### The memory -/

def pairingLinkGraceMs : ℕ := 120 * 1000
def approvedLinkTtlMs : ℕ := 24 * 60 * 60 * 1000
def approvedLinkCap : ℕ := 512

/-- What was done that bears on silent passes. -/
inductive Deed
  | approved (key : String × UInt64)
  | paired (fingerprint : String)
  | revokedEpoch (linkId : UInt64)
  | revokedPeer (fingerprint : String)
  deriving DecidableEq

/-- `LinkApprovals`, with the deeds so far and their times. -/
structure LinkMemory where
  queue : Queue (String × UInt64)
  approved : Expiring (String × UInt64)
  pairedAt : Expiring String
  deeds : List (Instant × Deed)

inductive LinkAnswer
  | none
  | queue (answer : Answer)
  | told (yes : Bool)
  deriving DecidableEq

inductive LinkOp
  | pass (ms : ℕ)
  | register (fingerprintHex : String) (linkId : Option UInt64)
  | decide (fingerprint : String) (linkId : UInt64) (approved : Bool)
  | cancel (ticket : ℕ)
  | wait (ticket : ℕ)
  | resolve (ticket : ℕ)
  | finish (ticket : ℕ)
  | drop (ticket : ℕ)
  | isApproved (fingerprint : String) (linkId : UInt64)
  | notePaired (fingerprint : String)
  | recentlyPaired (fingerprint : String)
  | revokeEpoch (linkId : UInt64)
  | revokePeer (fingerprint : String)
  deriving DecidableEq

/-- `pending.retain`, which drops the senders of the entries it takes out. -/
def Queue.retain {κ : Type} [DecidableEq κ] (q : Queue κ) (keep : κ → Bool) : Queue κ :=
  (q.pending.map (·.1)).foldl (fun q key => if keep key then q else q.remove key) q

namespace LinkMemory

def empty : LinkMemory := ⟨.empty, ∅, ∅, []⟩

def now (m : LinkMemory) : Instant := m.queue.now

def note (m : LinkMemory) (deed : Deed) : LinkMemory :=
  { m with deeds := m.deeds ++ [(m.now, deed)] }

/-- `prune_approved`. -/
def pruneApproved (m : LinkMemory) : LinkMemory :=
  { m with approved := m.approved.prune approvedLinkTtlMs approvedLinkCap m.now }

def inQueue (m : LinkMemory) (op : Op (String × UInt64)) : LinkMemory × LinkAnswer :=
  let (queue, answer) := m.queue.step linkApprovals op
  ({ m with queue }, .queue answer)

/-- `register`. -/
def register (m : LinkMemory) (fingerprintHex : String) (linkId : Option UInt64) :
    LinkMemory × LinkAnswer :=
  match linkKey fingerprintHex linkId with
  | .ok key => m.inQueue (.register key)
  | .error reason => (m, .queue (.refused reason))

/-- `decide`. -/
def decide (m : LinkMemory) (fingerprint : String) (linkId : UInt64) (approved : Bool) :
    LinkMemory × LinkAnswer :=
  let key := (Text.toAsciiLowercase fingerprint, linkId)
  let (queue, answer) := m.queue.decide linkApprovals key approved
  let m := { m with queue }
  if answer = .decided true ∧ approved = true then
    (({ m with approved := m.approved.insert key m.now }.pruneApproved).note (.approved key),
      .queue answer)
  else (m, .queue answer)

/-- `is_approved`. -/
def isApproved (m : LinkMemory) (fingerprint : String) (linkId : UInt64) : LinkMemory × Bool :=
  let m := m.pruneApproved
  (m, (m.approved.lookup (Text.toAsciiLowercase fingerprint, linkId)).isSome)

/-- `note_paired`. -/
def notePaired (m : LinkMemory) (fingerprint : String) : LinkMemory :=
  let fingerprint := Text.toAsciiLowercase fingerprint
  let paired := m.pairedAt.insert fingerprint m.now
  { m with pairedAt := Expiring.young pairingLinkGraceMs m.now paired }.note (.paired fingerprint)

/-- `recently_paired`. -/
def recentlyPaired (m : LinkMemory) (fingerprint : String) : Bool :=
  (m.pairedAt.lookup (Text.toAsciiLowercase fingerprint)).any fun since =>
    m.now - since < pairingLinkGraceMs

/-- `revoke_epoch`. -/
def revokeEpoch (m : LinkMemory) (linkId : UInt64) : LinkMemory :=
  { m with
    approved := m.approved.retain fun key _ => key.2 ≠ linkId
    queue := m.queue.retain fun key => key.2 ≠ linkId }.note (.revokedEpoch linkId)

/-- `revoke_peer`. -/
def revokePeer (m : LinkMemory) (fingerprint : String) : LinkMemory :=
  let fingerprint := Text.toAsciiLowercase fingerprint
  { m with
    approved := m.approved.retain fun key _ => key.1 ≠ fingerprint
    queue := m.queue.retain fun key => key.1 ≠ fingerprint }.note (.revokedPeer fingerprint)

def step (m : LinkMemory) : LinkOp → LinkMemory × LinkAnswer
  | .pass ms => m.inQueue (.pass ms)
  | .register fingerprintHex linkId => m.register fingerprintHex linkId
  | .decide fingerprint linkId approved => m.decide fingerprint linkId approved
  | .cancel ticket => m.inQueue (.cancel ticket)
  | .wait ticket => m.inQueue (.wait ticket)
  | .resolve ticket => m.inQueue (.resolve ticket)
  | .finish ticket => m.inQueue (.finish ticket)
  | .drop ticket => m.inQueue (.drop ticket)
  | .isApproved fingerprint linkId =>
    let (m, yes) := m.isApproved fingerprint linkId
    (m, .told yes)
  | .notePaired fingerprint => (m.notePaired fingerprint, .none)
  | .recentlyPaired fingerprint => (m, .told (m.recentlyPaired fingerprint))
  | .revokeEpoch linkId => (m.revokeEpoch linkId, .none)
  | .revokePeer fingerprint => (m.revokePeer fingerprint, .none)

end LinkMemory

/-- The memory behind the steps of a run. -/
abbrev remembered (ops : List LinkOp) : LinkMemory :=
  Trace.final LinkMemory.step LinkMemory.empty ops

/-! ### What the user decided -/

/-- The deed takes the approval of the epoch back. -/
def Deed.Revokes (key : String × UInt64) : Deed → Prop
  | .revokedEpoch linkId => linkId = key.2
  | .revokedPeer fingerprint => fingerprint = key.1
  | _ => False

def Deed.isApproval : Deed → Bool
  | .approved _ => true
  | _ => false

namespace LinkMemory

/-- The epoch was approved within a day, and not revoked since. -/
def Allowed (m : LinkMemory) (key : String × UInt64) : Prop :=
  Latch.Standing (fun d => d.2 = .approved key ∧ m.now < d.1 + approvedLinkTtlMs)
    (fun d => d.2.Revokes key) m.deeds

/-- The device was paired within the grace, and not revoked since. -/
def JustPaired (m : LinkMemory) (fingerprint : String) : Prop :=
  Latch.Standing (fun d => d.2 = .paired fingerprint ∧ m.now < d.1 + pairingLinkGraceMs)
    (fun d => d.2 = .revokedPeer fingerprint) m.deeds

/-- The epoch was approved within a day, not revoked since, and fewer epochs than the cap were
approved since. -/
def LatelyAllowed (m : LinkMemory) (key : String × UInt64) : Prop :=
  ∃ l t r, m.deeds = l ++ (t, .approved key) :: r ∧ m.now < t + approvedLinkTtlMs ∧
    (∀ d ∈ r, ¬d.2.Revokes key) ∧ r.countP (·.2.isApproval) < approvedLinkCap

/-- What passes silently was approved or paired, and what was approved passes. -/
structure Honest (m : LinkMemory) : Prop where
  allowed : ∀ fingerprint linkId, (m.isApproved fingerprint linkId).2 = true →
    m.Allowed (Text.toAsciiLowercase fingerprint, linkId)
  paired : ∀ fingerprint, m.recentlyPaired fingerprint = true →
    m.JustPaired (Text.toAsciiLowercase fingerprint)
  lately : ∀ fingerprint linkId,
    m.LatelyAllowed (Text.toAsciiLowercase fingerprint, linkId) →
      (m.isApproved fingerprint linkId).2 = true

/-- A device is revoked within the grace of its pairing; or an approval is applied when as many
other approvals as the cap are less than a day old. -/
def Forgets (m : LinkMemory) : LinkOp → Prop
  | .revokePeer fingerprint => m.recentlyPaired fingerprint = true
  | .decide fingerprint linkId true =>
    m.queue.Taken (Text.toAsciiLowercase fingerprint, linkId) ∧
      approvedLinkCap ≤ (Expiring.young approvedLinkTtlMs m.now
        (m.approved.erase (Text.toAsciiLowercase fingerprint, linkId))).entries.length
  | _ => False

/-! ### What a step does to the memory -/

/-- The maps and the deeds behind a step. -/
inductive Moves (m m' : LinkMemory) : LinkOp → Prop
  | idle {op : LinkOp} (hop : ¬m.Forgets op) (hnow : m.now ≤ m'.now)
      (happroved : m'.approved = m.approved)
      (hpaired : m'.pairedAt = m.pairedAt) (hdeeds : m'.deeds = m.deeds) : Moves m m' op
  | pruned {fingerprint : String} {linkId : UInt64} (hm' : m' = m.pruneApproved) :
      Moves m m' (.isApproved fingerprint linkId)
  | approved {fingerprint : String} {linkId : UInt64}
      (htaken : m.queue.Taken (Text.toAsciiLowercase fingerprint, linkId)) (hnow : m'.now = m.now)
      (happroved : m'.approved = Expiring.prune approvedLinkTtlMs approvedLinkCap m.now
        (m.approved.insert (Text.toAsciiLowercase fingerprint, linkId) m.now))
      (hpaired : m'.pairedAt = m.pairedAt)
      (hdeeds : m'.deeds =
        m.deeds ++ [(m.now, .approved (Text.toAsciiLowercase fingerprint, linkId))]) :
      Moves m m' (.decide fingerprint linkId true)
  | paired {fingerprint : String} (hm' : m' = m.notePaired fingerprint) :
      Moves m m' (.notePaired fingerprint)
  | revokedEpoch {linkId : UInt64} (hm' : m' = m.revokeEpoch linkId) :
      Moves m m' (.revokeEpoch linkId)
  | revokedPeer {fingerprint : String} (hm' : m' = m.revokePeer fingerprint) :
      Moves m m' (.revokePeer fingerprint)

lemma now_inQueue (m : LinkMemory) (op : Op (String × UInt64)) : m.now ≤ (m.inQueue op).1.now := by
  have hmoves : Queue.Moves linkApprovals m.queue (m.queue.step linkApprovals op).1 op :=
    Queue.moves_step op
  cases hmoves with
  | applied htaken hnow => exact hnow.ge
  | idle huntaken hnow => exact hnow

lemma moves_inQueue {m : LinkMemory} {op : LinkOp} (hop : ¬m.Forgets op)
    (op' : Op (String × UInt64)) : Moves m (m.inQueue op').1 op :=
  .idle hop (m.now_inQueue op') rfl rfl rfl

lemma moves_decide (m : LinkMemory) (fingerprint : String) (linkId : UInt64) (approved : Bool) :
    Moves m (m.decide fingerprint linkId approved).1 (.decide fingerprint linkId approved) := by
  have hmoves := m.now_inQueue (.decide (Text.toAsciiLowercase fingerprint, linkId) approved)
  unfold decide
  simp only
  split_ifs with happlied
  · obtain ⟨hanswer, rfl⟩ := happlied
    have htaken := Queue.decide_answer.mp hanswer
    have hsame : (m.queue.decide linkApprovals
        (Text.toAsciiLowercase fingerprint, linkId) true).1.now = m.now :=
      (htaken.applied linkApprovals true).1
    refine .approved htaken hsame ?_ rfl ?_
    · simp only [note, pruneApproved, now, hsame]
    · simp only [note, pruneApproved, now, hsame]
  · refine .idle (fun hforgets => happlied ?_) hmoves rfl rfl rfl
    cases approved with
    | false => exact absurd hforgets id
    | true => exact ⟨Queue.decide_answer.mpr hforgets.1, rfl⟩

lemma moves_step (m : LinkMemory) (op : LinkOp) : Moves m (m.step op).1 op := by
  cases op with
  | register fingerprintHex linkId =>
    unfold step register
    cases linkId with
    | none => exact .idle id le_rfl rfl rfl rfl
    | some linkId => exact moves_inQueue id _
  | decide fingerprint linkId approved => exact m.moves_decide fingerprint linkId approved
  | isApproved fingerprint linkId => exact .pruned rfl
  | notePaired fingerprint => exact .paired rfl
  | recentlyPaired fingerprint => exact .idle id le_rfl rfl rfl rfl
  | revokeEpoch linkId => exact .revokedEpoch rfl
  | revokePeer fingerprint => exact .revokedPeer rfl
  | _ => exact moves_inQueue id _

lemma now_retain (q : Queue (String × UInt64)) (keep : String × UInt64 → Bool) :
    (q.retain keep).now = q.now := by
  unfold Queue.retain
  induction q.pending.map (·.1) generalizing q with
  | nil => rfl
  | cons key l ih =>
    rw [List.foldl_cons, ih]
    split_ifs
    · rfl
    · exact (Queue.remove_same key).1

lemma deeds_revokeEpoch (m : LinkMemory) (linkId : UInt64) :
    (m.revokeEpoch linkId).deeds = m.deeds ++ [(m.now, .revokedEpoch linkId)] := by
  simp only [revokeEpoch, note, now, now_retain]

lemma deeds_revokePeer (m : LinkMemory) (fingerprint : String) :
    (m.revokePeer fingerprint).deeds =
      m.deeds ++ [(m.now, .revokedPeer (Text.toAsciiLowercase fingerprint))] := by
  simp only [revokePeer, note, now, now_retain]

/-! ### What is kept -/

/-- What is remembered was approved and not revoked; and it fits. -/
structure Kept (m : LinkMemory) : Prop where
  past : ∀ d ∈ m.deeds, d.1 ≤ m.now
  fits : m.approved.entries.length ≤ approvedLinkCap
  approved : ∀ key t, m.approved.lookup key = some t →
    Latch.Standing (· = (t, .approved key)) (fun d => d.2.Revokes key) m.deeds

lemma Kept.note {m m' : LinkMemory} (h : m.Kept) {deed : Deed} (hnow : m'.now = m.now)
    (hdeeds : m'.deeds = m.deeds ++ [(m.now, deed)])
    (hfits : m'.approved.entries.length ≤ approvedLinkCap)
    (happroved : ∀ key t, m'.approved.lookup key = some t →
      deed = .approved key ∧ t = m.now ∨ m.approved.lookup key = some t ∧ ¬deed.Revokes key) :
    m'.Kept := by
  refine ⟨fun d hd => ?_, hfits, fun key t hlookup => ?_⟩
  · rw [hdeeds] at hd
    rw [hnow]
    rcases List.mem_append.mp hd with hd | hd
    · exact h.past d hd
    · rw [List.mem_singleton.mp hd]
  · rw [hdeeds, Latch.standing_snoc]
    rcases happroved key t hlookup with ⟨rfl, rfl⟩ | ⟨hold, hnot⟩
    · exact Or.inl rfl
    · exact Or.inr ⟨h.approved key t hold, hnot⟩

lemma Kept.step {m m' : LinkMemory} {op : LinkOp} (h : m.Kept) (hmoves : Moves m m' op) :
    m'.Kept := by
  cases hmoves with
  | idle hidle hnow happroved hpaired hdeeds =>
    refine ⟨fun d hd => ?_, happroved ▸ h.fits, fun key t hlookup => ?_⟩
    · rw [hdeeds] at hd
      exact (h.past d hd).trans hnow
    · rw [happroved] at hlookup
      rw [hdeeds]
      exact h.approved key t hlookup
  | pruned hm' =>
    subst hm'
    refine ⟨h.past, Expiring.length_prune_le, fun key t hlookup => ?_⟩
    exact h.approved key t (Expiring.lookup_of_prune hlookup).1
  | @approved fingerprint linkId htaken hnow happroved hpaired hdeeds =>
    refine h.note hnow hdeeds (happroved ▸ Expiring.length_prune_le) fun key t hlookup => ?_
    rw [happroved] at hlookup
    have hlookup := (Expiring.lookup_of_prune hlookup).1
    by_cases hkey : key = (Text.toAsciiLowercase fingerprint, linkId)
    · subst hkey
      rw [AList.lookup_insert] at hlookup
      exact Or.inl ⟨rfl, (Option.some.inj hlookup).symm⟩
    · rw [AList.lookup_insert_ne hkey] at hlookup
      exact Or.inr ⟨hlookup, id⟩
  | paired hm' =>
    subst hm'
    exact h.note rfl rfl h.fits fun key t hlookup => Or.inr ⟨hlookup, id⟩
  | revokedEpoch hm' =>
    subst hm'
    refine h.note (now_retain _ _) (m.deeds_revokeEpoch _)
      (Expiring.length_retain_le.trans h.fits) fun key t hlookup => ?_
    obtain ⟨hlookup, hkeep⟩ := Expiring.lookup_retain.mp hlookup
    exact Or.inr ⟨hlookup, fun hrevokes => of_decide_eq_true hkeep hrevokes.symm⟩
  | revokedPeer hm' =>
    subst hm'
    refine h.note (now_retain _ _) (m.deeds_revokePeer _)
      (Expiring.length_retain_le.trans h.fits) fun key t hlookup => ?_
    obtain ⟨hlookup, hkeep⟩ := Expiring.lookup_retain.mp hlookup
    exact Or.inr ⟨hlookup, fun hrevokes => of_decide_eq_true hkeep hrevokes.symm⟩

/-- What is remembered of pairings stands, and what stands of approvals is remembered. -/
structure Full (m : LinkMemory) : Prop where
  paired : ∀ fingerprint t, m.pairedAt.lookup fingerprint = some t →
    m.now < t + pairingLinkGraceMs →
      Latch.Standing (· = (t, .paired fingerprint)) (·.2 = .revokedPeer fingerprint) m.deeds
  approved : ∀ key t, Latch.Standing (· = (t, .approved key)) (fun d => d.2.Revokes key) m.deeds →
    m.now < t + approvedLinkTtlMs → ∃ t', m.approved.lookup key = some t' ∧ t ≤ t'

lemma sub_lt_iff {now t span : ℕ} (hspan : 0 < span) : now - t < span ↔ now < t + span := by
  omega

lemma recentlyPaired_iff (m : LinkMemory) (fingerprint : String) :
    m.recentlyPaired fingerprint = true ↔
      ∃ t, m.pairedAt.lookup (Text.toAsciiLowercase fingerprint) = some t ∧
        m.now < t + pairingLinkGraceMs := by
  have hspan : 0 < pairingLinkGraceMs := by decide
  unfold recentlyPaired
  rcases m.pairedAt.lookup (Text.toAsciiLowercase fingerprint) with _ | t
  · simp
  · simp only [Option.any_some, decide_eq_true_iff, Option.some.injEq, exists_eq_left']
    exact sub_lt_iff hspan

/-- A deed that leaves the pairings alone. -/
lemma Full.paired_snoc {m m' : LinkMemory} (h : m.Full) {deed : Deed} (hnow : m'.now = m.now)
    (hdeeds : m'.deeds = m.deeds ++ [(m.now, deed)]) (hpaired : m'.pairedAt = m.pairedAt)
    (hdeed : ∀ fingerprint t, m.pairedAt.lookup fingerprint = some t →
      m.now < t + pairingLinkGraceMs → deed ≠ .revokedPeer fingerprint) :
    ∀ fingerprint t, m'.pairedAt.lookup fingerprint = some t → m'.now < t + pairingLinkGraceMs →
      Latch.Standing (· = (t, .paired fingerprint)) (·.2 = .revokedPeer fingerprint) m'.deeds := by
  intro fingerprint t hlookup ht
  rw [hpaired] at hlookup
  rw [hnow] at ht
  rw [hdeeds, Latch.standing_snoc]
  exact Or.inr ⟨h.paired fingerprint t hlookup ht, hdeed fingerprint t hlookup ht⟩

/-- A deed that takes no approval back but of epochs it forgets. -/
lemma Full.approved_snoc {m m' : LinkMemory} (h : m.Full) {deed : Deed} (hnow : m'.now = m.now)
    (hdeeds : m'.deeds = m.deeds ++ [(m.now, deed)]) (hdeed : deed.isApproval = false)
    (hkeep : ∀ key t, m.approved.lookup key = some t → ¬deed.Revokes key →
      m'.approved.lookup key = some t) :
    ∀ key t, Latch.Standing (· = (t, .approved key)) (fun d => d.2.Revokes key) m'.deeds →
      m'.now < t + approvedLinkTtlMs → ∃ t', m'.approved.lookup key = some t' ∧ t ≤ t' := by
  intro key t hstanding ht
  rw [hdeeds, Latch.standing_snoc] at hstanding
  rw [hnow] at ht
  rcases hstanding with heq | ⟨hstanding, hnot⟩
  · cases heq
    cases hdeed
  · obtain ⟨t', hlookup, hle⟩ := h.approved key t hstanding ht
    exact ⟨t', hkeep key t' hlookup hnot, hle⟩

lemma Full.step {m m' : LinkMemory} {op : LinkOp} (hkept : m.Kept) (h : m.Full)
    (hmoves : Moves m m' op) (hop : ¬m.Forgets op) : m'.Full := by
  have httl : 0 < approvedLinkTtlMs := by decide
  cases hmoves with
  | idle hidle hnow happroved hpaired hdeeds =>
    refine ⟨fun fingerprint t hlookup ht => ?_, fun key t hstanding ht => ?_⟩
    · rw [hpaired] at hlookup
      rw [hdeeds]
      exact h.paired fingerprint t hlookup (lt_of_le_of_lt hnow ht)
    · rw [hdeeds] at hstanding
      rw [happroved]
      exact h.approved key t hstanding (lt_of_le_of_lt hnow ht)
  | pruned hm' =>
    subst hm'
    refine ⟨h.paired, fun key t hstanding ht => ?_⟩
    obtain ⟨t', hlookup, hle⟩ := h.approved key t hstanding ht
    refine ⟨t', ?_, hle⟩
    rw [pruneApproved, Expiring.prune_of_length_le hkept.fits, Expiring.lookup_young,
      sub_lt_iff httl]
    exact ⟨hlookup, lt_of_lt_of_le ht (Nat.add_le_add_right hle _)⟩
  | @approved fingerprint linkId htaken hnow happroved hpaired hdeeds =>
    refine ⟨h.paired_snoc hnow hdeeds hpaired fun _ _ _ _ heq => (by cases heq),
      fun key t hstanding ht => ?_⟩
    rw [hdeeds, Latch.standing_snoc] at hstanding
    rw [hnow] at ht
    have hfits : (Expiring.young approvedLinkTtlMs m.now (m.approved.insert
        (Text.toAsciiLowercase fingerprint, linkId) m.now)).entries.length ≤ approvedLinkCap := by
      rw [Expiring.length_young_insert httl]
      exact Nat.lt_of_not_le fun hfull => hop ⟨htaken, hfull⟩
    rw [happroved, Expiring.prune_of_le hfits]
    by_cases hkey : key = (Text.toAsciiLowercase fingerprint, linkId)
    · subst hkey
      have hle : t ≤ m.now := by
        rcases hstanding with heq | ⟨⟨l, d, r, hsplit, rfl, -⟩, -⟩
        · cases heq
          exact le_rfl
        · exact hkept.past (t, _) (hsplit ▸ List.mem_append_right l List.mem_cons_self)
      refine ⟨m.now, ?_, hle⟩
      rw [Expiring.lookup_young, AList.lookup_insert, Nat.sub_self]
      exact ⟨rfl, httl⟩
    · have hold : Latch.Standing (· = (t, .approved key)) (fun d => d.2.Revokes key) m.deeds := by
        rcases hstanding with heq | ⟨hstanding, -⟩
        · cases heq
          exact absurd rfl hkey
        · exact hstanding
      obtain ⟨t', hlookup, hle⟩ := h.approved key t hold ht
      refine ⟨t', ?_, hle⟩
      rw [Expiring.lookup_young, AList.lookup_insert_ne hkey, sub_lt_iff httl]
      exact ⟨hlookup, lt_of_lt_of_le ht (Nat.add_le_add_right hle _)⟩
  | @paired fingerprint hm' =>
    subst hm'
    refine ⟨fun other t hlookup ht => ?_,
      h.approved_snoc rfl rfl rfl fun key t hlookup _ => hlookup⟩
    have hlookup := (Expiring.lookup_young.mp hlookup).1
    rw [notePaired, note, Latch.standing_snoc]
    by_cases hother : other = Text.toAsciiLowercase fingerprint
    · subst hother
      rw [AList.lookup_insert] at hlookup
      obtain rfl := Option.some.inj hlookup
      exact Or.inl rfl
    · rw [AList.lookup_insert_ne hother] at hlookup
      exact Or.inr ⟨h.paired other t hlookup ht, fun heq => by cases heq⟩
  | @revokedEpoch linkId hm' =>
    subst hm'
    have hnow : (m.revokeEpoch linkId).now = m.now := now_retain _ _
    refine ⟨h.paired_snoc hnow (m.deeds_revokeEpoch linkId) rfl fun _ _ _ _ heq => (by cases heq),
      h.approved_snoc hnow (m.deeds_revokeEpoch linkId) rfl fun key t hlookup hnot => ?_⟩
    exact Expiring.lookup_retain.mpr ⟨hlookup, decide_eq_true fun heq => hnot heq.symm⟩
  | @revokedPeer fingerprint hm' =>
    subst hm'
    have hnow : (m.revokePeer fingerprint).now = m.now := now_retain _ _
    refine ⟨h.paired_snoc hnow (m.deeds_revokePeer fingerprint) rfl
      fun other t hlookup ht heq => ?_, h.approved_snoc hnow (m.deeds_revokePeer fingerprint) rfl
      fun key t hlookup hnot => ?_⟩
    · obtain rfl := Deed.revokedPeer.inj heq
      exact hop ((m.recentlyPaired_iff fingerprint).mpr ⟨t, hlookup, ht⟩)
    · exact Expiring.lookup_retain.mpr ⟨hlookup, decide_eq_true fun heq => hnot heq.symm⟩

/-! ### Silent passes -/

variable {m : LinkMemory}

lemma isApproved_iff (h : m.Kept) (fingerprint : String) (linkId : UInt64) :
    (m.isApproved fingerprint linkId).2 = true ↔
      ∃ t, m.approved.lookup (Text.toAsciiLowercase fingerprint, linkId) = some t ∧
        m.now < t + approvedLinkTtlMs := by
  have httl : 0 < approvedLinkTtlMs := by decide
  have hlookup : ∀ t, (m.pruneApproved.approved.lookup
      (Text.toAsciiLowercase fingerprint, linkId)) = some t ↔
      m.approved.lookup (Text.toAsciiLowercase fingerprint, linkId) = some t ∧
        m.now < t + approvedLinkTtlMs := by
    intro t
    rw [pruneApproved, Expiring.prune_of_length_le h.fits, Expiring.lookup_young, sub_lt_iff httl]
  simp only [isApproved, Option.isSome_iff_exists, hlookup]

lemma Full.honest (hkept : m.Kept) (h : m.Full) : m.Honest := by
  refine ⟨fun fingerprint linkId hyes => ?_, fun fingerprint hyes => ?_,
    fun fingerprint linkId hlately => ?_⟩
  · obtain ⟨t, hlookup, ht⟩ := (isApproved_iff hkept fingerprint linkId).mp hyes
    refine (hkept.approved _ t hlookup).imp ?_
    rintro d - rfl
    exact ⟨rfl, ht⟩
  · obtain ⟨t, hlookup, ht⟩ := (m.recentlyPaired_iff fingerprint).mp hyes
    refine (h.paired _ t hlookup ht).imp ?_
    rintro d - rfl
    exact ⟨rfl, ht⟩
  · obtain ⟨l, t, r, hsplit, ht, hr, -⟩ := hlately
    obtain ⟨t', hlookup, hle⟩ := h.approved _ t ⟨l, _, r, hsplit, rfl, hr⟩ ht
    exact (isApproved_iff hkept fingerprint linkId).mpr
      ⟨t', hlookup, lt_of_lt_of_le ht (Nat.add_le_add_right hle _)⟩

/-- Behind a step that forgets, a device that was hung up on passes, or an epoch that was just
allowed does not. -/
lemma Forgets.breaks {op : LinkOp} (h : m.Forgets op) : ¬(m.step op).1.Honest := by
  intro hhonest
  have httl : 0 < approvedLinkTtlMs := by decide
  have hmoves := m.moves_step op
  generalize (m.step op).1 = m' at hhonest hmoves
  cases hmoves with
  | @approved fingerprint linkId htaken hnow happroved hpaired hdeeds =>
    obtain ⟨-, hfull⟩ := h
    have hcleared : m'.approved = ∅ := by
      rw [happroved, Expiring.prune, Expiring.length_young_insert httl]
      exact if_pos (Nat.lt_succ_of_le hfull)
    have hlately : m'.LatelyAllowed (Text.toAsciiLowercase fingerprint, linkId) := by
      refine ⟨m.deeds, m.now, [], hdeeds, ?_, fun d hd => absurd hd List.not_mem_nil, by decide⟩
      rw [hnow]
      exact Nat.lt_add_of_pos_right httl
    have hyes := hhonest.lately fingerprint linkId hlately
    rw [isApproved, pruneApproved, hcleared] at hyes
    cases hyes
  | @revokedPeer fingerprint hm' =>
    subst hm'
    have hnow : (m.revokePeer fingerprint).now = m.now := now_retain _ _
    have hyes : (m.revokePeer fingerprint).recentlyPaired fingerprint = true := by
      rw [recentlyPaired_iff, hnow]
      exact (m.recentlyPaired_iff fingerprint).mp h
    have hpaired := hhonest.paired fingerprint hyes
    rw [JustPaired, deeds_revokePeer, Latch.standing_snoc] at hpaired
    rcases hpaired with ⟨heq, -⟩ | ⟨-, hnot⟩
    · cases heq
    · exact hnot rfl
  | idle hidle => exact hidle h
  | pruned => exact h
  | paired => exact h
  | revokedEpoch => exact h

end LinkMemory

/-! ### Runs -/

lemma kept_remembered (ops : List LinkOp) : (remembered ops).Kept := by
  refine Trace.always (I := fun _ m => LinkMemory.Kept m) ?_
    fun m op hm => hm.step (LinkMemory.moves_step _ op)
  exact ⟨fun d hd => absurd hd List.not_mem_nil, Nat.zero_le _, fun key t h => by cases h⟩

/-- **Silent passes mean what the user decided.** Along a run an epoch that passes was approved
within a day and a device that passes was paired within the grace, both not revoked since, and
the last approvals pass up to the cap, exactly if no device is revoked within the grace of its
pairing and no approval is applied while as many others as the cap are young. -/
theorem silent_passes_iff (ops : List LinkOp) :
    (∀ before, before <+: ops → (remembered before).Honest) ↔
      Trace.Each (fun before op => ¬(remembered before).Forgets op) ops := by
  constructor
  · intro hhonest before op hpre hforgets
    have hafter := hhonest (before ++ [op]) hpre
    rw [remembered, Trace.final_snoc] at hafter
    exact hforgets.breaks hafter
  · intro hops before hpre
    have hfull : (remembered before).Full := by
      refine Trace.invariant (I := fun _ m => LinkMemory.Full m) ?_ (fun m op hm hop => ?_)
        (hops.of_prefix hpre)
      · exact ⟨fun fingerprint t h => (by cases h),
          fun key t h => absurd h Latch.not_standing_nil⟩
      · exact hm.step (kept_remembered m) (LinkMemory.moves_step _ op) hop
    exact hfull.honest (kept_remembered before)

/-- A device is paired and hung up on at once. -/
def hungUp : List LinkOp := [.notePaired "aa", .revokePeer "aa"]

theorem passes_after_the_hang_up :
    (remembered hungUp).recentlyPaired "aa" = true ∧
      (remembered hungUp).deeds = [(0, .paired "aa"), (0, .revokedPeer "aa")] ∧
      ¬(remembered hungUp).JustPaired (Text.toAsciiLowercase "aa") := by
  have hdeeds : (remembered hungUp).deeds = [(0, .paired "aa"), (0, .revokedPeer "aa")] := by
    decide
  have hlower : Text.toAsciiLowercase "aa" = "aa" := by decide
  refine ⟨by decide, hdeeds, ?_⟩
  rw [LinkMemory.JustPaired, hdeeds, hlower,
    show [(0, Deed.paired "aa"), (0, .revokedPeer "aa")]
      = [(0, .paired "aa")] ++ [(0, .revokedPeer "aa")] from rfl, Latch.standing_snoc]
  rintro (⟨heq, -⟩ | ⟨-, hnot⟩)
  · cases heq
  · exact hnot rfl

end TheKvm.Approvals

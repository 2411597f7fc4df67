import TheKvm.Daemon.Offer

/-!
Published offers, as a session of the driving peer sends them on.

A publication takes the place of the one before it in a watch channel. A session looks there
when it starts and when it is woken, and tells what is new to it by the number the UI gave.
-/

namespace TheKvm

/-- The task of a session: before the offer that is pending, in its select, in the arm of a
change, or over. -/
inductive SessionPhase
  | starting | waiting | woken | over
  deriving DecidableEq

/-- What a session found in the channel: the offer, the version of the channel, and whether the
offer was sent on. -/
structure Observation where
  version : ℕ
  offer : LocalClipboardOffer
  sent : Bool
  deriving DecidableEq

structure OfferSession where
  seen : ℕ
  lastSentOffer : ℕ
  phase : SessionPhase
  log : List Observation
  deriving DecidableEq

/-- The daemon's offers with all that was published, and a session. The version of the channel
is the number of publications. -/
structure OfferRelay where
  offers : LocalOffers
  publications : List LocalClipboardOffer
  session : Option OfferSession

/-- The clipboard settings a session has. -/
structure ClipboardConfig where
  enabled : Bool
  maxBytes : ℕ

/-- `send_clipboard_change` does not skip the offer. -/
def ClipboardConfig.Fits (config : ClipboardConfig) (offer : LocalClipboardOffer) : Prop :=
  Text.utf8Len offer.payload ≤ config.maxBytes

instance (config : ClipboardConfig) (offer : LocalClipboardOffer) :
    Decidable (config.Fits offer) :=
  inferInstanceAs (Decidable (_ ≤ _))

namespace OfferRelay

inductive Op
  | submit (c : OfferChunk)
  | start
  | wake
  | observe (written : Bool)

def init : OfferRelay := ⟨.default, [], none⟩

def version (s : OfferRelay) : ℕ := s.publications.length

def submit (s : OfferRelay) (c : OfferChunk) : OfferRelay :=
  { s with
    offers := (s.offers.submitLocalClipboardChunk c).1
    publications :=
      match (s.offers.assembly.push c).2 with
      | .ok (some offer) => s.publications ++ [offer]
      | _ => s.publications }

/-- `subscribe_local_clipboard_offers`: what is in the channel counts as seen. -/
def start (s : OfferRelay) : OfferSession := ⟨s.version, 0, .starting, []⟩

/-- `changed` of the receiver. -/
def wake (s : OfferRelay) (σ : OfferSession) : OfferSession :=
  if σ.phase = .waiting ∧ σ.seen < s.version then { σ with seen := s.version, phase := .woken }
  else σ

/-- `forward_local_clipboard_offer`: an offer over the cap is skipped, and one that cannot be
written ends the session. -/
def forward (config : ClipboardConfig) (s : OfferRelay) (σ : OfferSession)
    (offer : LocalClipboardOffer) (written : Bool) : OfferSession :=
  if config.Fits offer then
    if written then
      { σ with
        lastSentOffer := offer.generation
        phase := .waiting
        log := σ.log ++ [⟨s.version, offer, true⟩] }
    else { σ with phase := .over }
  else { σ with phase := .waiting, log := σ.log ++ [⟨s.version, offer, false⟩] }

/-- The offer in the channel is sent on if its number is above the last one sent. -/
def observe (config : ClipboardConfig) (s : OfferRelay) (σ : OfferSession) (written : Bool) :
    OfferSession :=
  if σ.phase = .starting ∨ σ.phase = .woken then
    match s.offers.published with
    | none => { σ with phase := .waiting }
    | some offer =>
      if config.enabled ∧ σ.lastSentOffer < offer.generation then
        s.forward config σ offer written
      else { σ with phase := .waiting, log := σ.log ++ [⟨s.version, offer, false⟩] }
  else σ

def step (config : ClipboardConfig) (s : OfferRelay) : Op → OfferRelay
  | .submit c => s.submit c
  | .start => { s with session := some s.start }
  | .wake => { s with session := s.session.map s.wake }
  | .observe written => { s with session := s.session.map fun σ => s.observe config σ written }

/-- The daemon and its session behind the steps of a run. -/
def after (config : ClipboardConfig) (ops : List Op) : OfferRelay :=
  ops.foldl (step config) init

/-! ### What a session owes the driving peer -/

/-- What fits and was not sent on yet is sent on when the session finds it. -/
def Forwards (config : ClipboardConfig) (log : List Observation) : Prop :=
  Trace.Each (fun m o => config.Fits o.offer →
    (∀ p ∈ m, p.sent = true → p.version ≠ o.version) → o.sent = true) log

/-- Of the offers that fit, those found later have the higher numbers. -/
def Rising (config : ClipboardConfig) (log : List Observation) : Prop :=
  Trace.Each (fun m o => config.Fits o.offer → ∀ p ∈ m, config.Fits p.offer →
    p.version ≠ o.version → p.offer.generation < o.offer.generation) log

/-- The session is in its select, and has seen what is in the channel. -/
def Quiet (s : OfferRelay) (σ : OfferSession) : Prop :=
  σ.phase = .waiting ∧ σ.seen = s.version

/-- The publication sent on last. -/
def lastForwarded (log : List Observation) : Option Observation :=
  (log.filter (·.sent)).getLast?

structure Faithful (config : ClipboardConfig) (s : OfferRelay) (σ : OfferSession) : Prop where
  forwards : Forwards config σ.log
  settled : Quiet s σ → ∀ offer, s.offers.published = some offer → config.Fits offer →
    (lastForwarded σ.log).map (·.version) = some s.version

/-! ### The log of a session -/

/-- The number of the offer sent on last. -/
def lastGeneration (log : List Observation) : ℕ :=
  ((lastForwarded log).map (·.offer.generation)).getD 0

/-- What was found is sent on if it fits and its number is above the last one sent. -/
def Decided (config : ClipboardConfig) (log : List Observation) : Prop :=
  Trace.Each (fun m o => o.sent = true ↔
    config.Fits o.offer ∧ lastGeneration m < o.offer.generation) log

/-- A session's log of the publications. -/
structure LogOf (config : ClipboardConfig) (publications : List LocalClipboardOffer)
    (log : List Observation) : Prop where
  decided : Decided config log
  found : ∀ p ∈ log, 0 < p.version ∧ publications[p.version - 1]? = some p.offer
  ordered : log.Pairwise fun p q => p.version ≤ q.version
  numbered : ∀ offer ∈ publications, 0 < offer.generation

section

variable {config : ClipboardConfig} {publications : List LocalClipboardOffer}
  {log m : List Observation} {o p q : Observation}

lemma lastForwarded_snoc :
    lastForwarded (log ++ [o]) = if o.sent then some o else lastForwarded log := by
  unfold lastForwarded
  rw [List.filter_append]
  cases hsent : o.sent <;> simp [hsent]

lemma lastGeneration_snoc :
    lastGeneration (log ++ [o]) = if o.sent then o.offer.generation else lastGeneration log := by
  unfold lastGeneration
  rw [lastForwarded_snoc]
  split <;> rfl

lemma mem_of_lastForwarded (h : lastForwarded log = some o) : o ∈ log ∧ o.sent = true :=
  List.mem_filter.mp (List.mem_of_getLast? h)

/-- No number that was sent is above the last one. -/
lemma Decided.le_lastGeneration (h : Decided config log) (hp : p ∈ log) (hsent : p.sent = true) :
    p.offer.generation ≤ lastGeneration log := by
  induction log using List.reverseRecOn with
  | nil => cases hp
  | append_singleton l o ih =>
    obtain ⟨hl, ho⟩ := Trace.each_snoc.mp h
    rw [lastGeneration_snoc]
    rcases List.mem_append.mp hp with hp | hp
    · have hle := ih hl hp
      split_ifs with hsent
      · exact (hle.trans_lt (ho.mp hsent).2).le
      · exact hle
    · obtain rfl := List.mem_singleton.mp hp
      rw [if_pos hsent]

namespace LogOf

lemma of_prefix (h : LogOf config publications log) (hm : m <+: log) :
    LogOf config publications m where
  decided := Trace.Each.of_prefix h.decided hm
  found := fun p hp => h.found p (hm.subset hp)
  ordered := h.ordered.sublist hm.sublist
  numbered := h.numbered

lemma offer_eq (h : LogOf config publications log) (hp : p ∈ log) (hq : q ∈ log)
    (hversion : p.version = q.version) : p.offer = q.offer := by
  have hoffer := (h.found p hp).2
  rw [hversion, (h.found q hq).2] at hoffer
  exact (Option.some.inj hoffer).symm

lemma fits_of_sent (h : LogOf config publications log) (hp : p ∈ log) (hsent : p.sent = true) :
    config.Fits p.offer := by
  obtain ⟨l, r, rfl⟩ := List.append_of_mem hp
  exact ((h.decided l p ⟨r, by simp⟩).mp hsent).1

/-- Of two that were sent, the later publication has the higher number. -/
lemma generation_lt (h : LogOf config publications log) (hp : p ∈ log) (hq : q ∈ log)
    (hpsent : p.sent = true) (hqsent : q.sent = true) (hversion : p.version < q.version) :
    p.offer.generation < q.offer.generation := by
  obtain ⟨l, r, rfl⟩ := List.append_of_mem hq
  have hl : l ++ [q] <+: l ++ q :: r := ⟨r, by simp⟩
  have hbefore : p ∈ l := by
    rcases List.mem_append.mp hp with hp | hp
    · exact hp
    · have hordered := (List.pairwise_append.mp h.ordered).2.1
      rcases List.mem_cons.mp hp with rfl | hp
      · omega
      · have := (List.pairwise_cons.mp hordered).1 p hp
        omega
  have hdecided : Decided config l := Trace.Each.earlier h.decided hl
  exact (hdecided.le_lastGeneration hbefore hpsent).trans_lt ((h.decided l q hl).mp hqsent).2

end LogOf

/-- What fits and was found was sent on. -/
lemma Forwards.exists_sent (h : Forwards config log) (hp : p ∈ log) (hfits : config.Fits p.offer) :
    ∃ q ∈ log, q.sent = true ∧ q.version = p.version := by
  obtain ⟨l, r, rfl⟩ := List.append_of_mem hp
  by_cases hsent : ∃ q ∈ l, q.sent = true ∧ q.version = p.version
  · obtain ⟨q, hq, hqsent⟩ := hsent
    exact ⟨q, List.mem_append_left _ hq, hqsent⟩
  · push Not at hsent
    exact ⟨p, hp, h l p ⟨r, by simp⟩ hfits hsent, rfl⟩

/-- What a session sends on is all it owes exactly if the numbers rise. -/
theorem LogOf.forwards_iff_rising (h : LogOf config publications log) :
    Forwards config log ↔ Rising config log := by
  induction log using List.reverseRecOn with
  | nil => exact iff_of_true Trace.each_nil Trace.each_nil
  | append_singleton l o ih =>
    have hl := h.of_prefix (List.prefix_append l [o])
    have hmem : ∀ p ∈ l, p ∈ l ++ [o] := fun p hp => List.mem_append_left _ hp
    have ho : o ∈ l ++ [o] := List.mem_append_right _ List.mem_cons_self
    have hdecided := h.decided l o (by rfl)
    rw [Forwards, Rising, Trace.each_snoc, Trace.each_snoc, ← Forwards, ← Rising, ← ih hl]
    refine and_congr_right fun hforwards => ?_
    constructor
    · intro hsends hfits p hp hpfits hne
      obtain ⟨p', hp', hsent', hversion'⟩ := Forwards.exists_sent hforwards hp hpfits
      rw [← hl.offer_eq hp' hp hversion']
      by_cases hsent : ∃ q ∈ l, q.sent = true ∧ q.version = o.version
      · -- it was found before, and sent on then
        obtain ⟨q, hq, hqsent, hqversion⟩ := hsent
        have hle : p.version ≤ o.version :=
          (List.pairwise_append.mp h.ordered).2.2 p hp o List.mem_cons_self
        rw [← h.offer_eq (hmem q hq) ho hqversion]
        exact hl.generation_lt hp' hq hsent' hqsent (by omega)
      · push Not at hsent
        have hlast := (hdecided.mp (hsends hfits hsent)).2
        exact (hl.decided.le_lastGeneration hp' hsent').trans_lt hlast
    · intro hrises hfits hnew
      refine hdecided.mpr ⟨hfits, ?_⟩
      unfold lastGeneration
      cases hlast : lastForwarded l with
      | none => exact h.numbered _ (List.mem_of_getElem? (h.found o ho).2)
      | some p =>
        obtain ⟨hp, hsent⟩ := mem_of_lastForwarded hlast
        exact hrises hfits p hp (hl.fits_of_sent hp hsent) (hnew p hp hsent)

end

/-! ### Runs -/

/-- The session has looked at what it was woken for, and remembers what it sent. -/
structure Attends (config : ClipboardConfig) (s : OfferRelay) (σ : OfferSession) : Prop where
  log : LogOf config s.publications σ.log
  last : σ.lastSentOffer = lastGeneration σ.log
  seen_le : σ.seen ≤ s.version
  looked : σ.phase = .waiting →
    σ.seen = 0 ∨ ∃ p, σ.log.getLast? = some p ∧ σ.seen ≤ p.version

structure Records (config : ClipboardConfig) (s : OfferRelay) : Prop where
  published : s.offers.published = s.publications.getLast?
  numbered : ∀ offer ∈ s.publications, 0 < offer.generation
  session : ∀ σ, s.session = some σ → Attends config s σ

variable {config : ClipboardConfig} {s : OfferRelay} {σ : OfferSession}

/-- A session attends to the publications, and to nothing else of the daemon. -/
lemma Attends.congr {s' : OfferRelay} (h : Attends config s σ)
    (hpublications : s'.publications = s.publications) : Attends config s' σ := by
  obtain ⟨hlog, hlast, hseen, hlooked⟩ := h
  refine ⟨hpublications ▸ hlog, hlast, ?_, hlooked⟩
  rwa [version, hpublications]

/-- A number of zero is refused. -/
lemma generation_pos {a : OfferAssembly} {c : OfferChunk} {offer : LocalClipboardOffer}
    (h : (a.push c).2 = .ok (some offer)) : 0 < offer.generation := by
  unfold OfferAssembly.push at h
  split at h
  · cases h
  · rename_i hrefusal
    have hgeneration : c.generation ≠ 0 := by
      intro hzero
      rw [OfferAssembly.refusal, if_pos (Or.inl hzero)] at hrefusal
      cases hrefusal
    dsimp only at h
    split_ifs at h
    · cases h
    · obtain rfl := Option.some.inj (Except.ok.inj h)
      exact Nat.pos_of_ne_zero hgeneration

lemma LogOf.publish {publications : List LocalClipboardOffer} {log : List Observation}
    (h : LogOf config publications log) {offer : LocalClipboardOffer}
    (hoffer : 0 < offer.generation) : LogOf config (publications ++ [offer]) log where
  decided := h.decided
  found := by
    intro p hp
    obtain ⟨hpos, hget⟩ := h.found p hp
    have hlt : p.version - 1 < publications.length := (List.getElem?_eq_some_iff.mp hget).1
    exact ⟨hpos, by rw [List.getElem?_append_left hlt, hget]⟩
  ordered := h.ordered
  numbered := by
    intro o ho
    rcases List.mem_append.mp ho with ho | ho
    · exact h.numbered o ho
    · obtain rfl := List.mem_singleton.mp ho
      exact hoffer

lemma LogOf.version_le (h : LogOf config s.publications σ.log) {p : Observation}
    (hp : p ∈ σ.log) : p.version ≤ s.version := by
  obtain ⟨hpos, hget⟩ := h.found p hp
  have := (List.getElem?_eq_some_iff.mp hget).1
  unfold version
  omega

/-- What is found in the channel, and what becomes of it, is put in the log. -/
lemma LogOf.note (h : LogOf config s.publications σ.log) {offer : LocalClipboardOffer} {sent : Bool}
    (hoffer : s.publications.getLast? = some offer)
    (hsent : sent = true ↔ config.Fits offer ∧ lastGeneration σ.log < offer.generation) :
    LogOf config s.publications (σ.log ++ [⟨s.version, offer, sent⟩]) where
  decided := Trace.each_snoc.mpr ⟨h.decided, hsent⟩
  found := by
    intro p hp
    rcases List.mem_append.mp hp with hp | hp
    · exact h.found p hp
    · obtain rfl := List.mem_singleton.mp hp
      have hne : s.publications ≠ [] := by
        rintro hnil
        rw [hnil] at hoffer
        cases hoffer
      refine ⟨List.length_pos_iff.mpr hne, ?_⟩
      rw [← hoffer, List.getLast?_eq_getElem?]
      rfl
  ordered := by
    refine List.pairwise_append.mpr ⟨h.ordered, List.pairwise_singleton _ _, fun p hp q hq => ?_⟩
    obtain rfl := List.mem_singleton.mp hq
    exact h.version_le hp
  numbered := h.numbered

lemma Records.submit (h : Records config s) (c : OfferChunk) : Records config (s.submit c) := by
  have hresult := h.published
  unfold OfferRelay.submit LocalOffers.submitLocalClipboardChunk
  rcases hpush : s.offers.assembly.push c with ⟨assembly, message | _ | offer⟩
  · exact ⟨h.published, h.numbered, fun σ hσ => (h.session σ hσ).congr rfl⟩
  · exact ⟨h.published, h.numbered, fun σ hσ => (h.session σ hσ).congr rfl⟩
  · have hoffer : 0 < offer.generation := generation_pos (by rw [hpush])
    refine ⟨by simp, ?_, fun σ hσ => ?_⟩
    · intro o ho
      rcases List.mem_append.mp ho with ho | ho
      · exact h.numbered o ho
      · obtain rfl := List.mem_singleton.mp ho
        exact hoffer
    · obtain ⟨hlog, hlast, hseen, hlooked⟩ := h.session σ hσ
      refine ⟨hlog.publish hoffer, hlast, hseen.trans ?_, hlooked⟩
      simp [version]

lemma Records.start (h : Records config s) : Attends config s s.start where
  log := ⟨Trace.each_nil, fun p hp => absurd hp List.not_mem_nil, List.Pairwise.nil, h.numbered⟩
  last := rfl
  seen_le := le_rfl
  looked := fun hphase => by cases hphase

lemma Attends.wake (h : Attends config s σ) : Attends config s (s.wake σ) := by
  unfold OfferRelay.wake
  split_ifs with hnew
  · exact ⟨h.log, h.last, le_rfl, fun hphase => by cases hphase⟩
  · exact h

/-- What a session looks at is the last publication. -/
lemma Attends.observe (henabled : config.enabled = true) (hrecords : Records config s)
    (h : Attends config s σ) (written : Bool) :
    Attends config s (s.observe config σ written) := by
  unfold OfferRelay.observe
  split_ifs
  swap
  · exact h
  rw [hrecords.published]
  cases hoffer : s.publications.getLast? with
  | none =>
    have hnil : s.publications = [] := List.getLast?_eq_none_iff.mp hoffer
    have hseen : σ.seen = 0 := by
      have := h.seen_le
      rw [version, hnil, List.length_nil] at this
      omega
    exact ⟨h.log, h.last, h.seen_le, fun _ => Or.inl hseen⟩
  | some offer =>
    have hfound : ∀ sent : Bool, ∃ p : Observation,
        (σ.log ++ [(⟨s.version, offer, sent⟩ : Observation)]).getLast? = some p ∧
          σ.seen ≤ p.version :=
      fun sent => ⟨⟨s.version, offer, sent⟩, List.getLast?_concat, h.seen_le⟩
    simp only [henabled, true_and]
    unfold forward
    split_ifs with hnew hfits hwritten
    · refine ⟨h.log.note hoffer (iff_of_true rfl ⟨hfits, h.last ▸ hnew⟩), ?_, h.seen_le,
        fun _ => Or.inr (hfound true)⟩
      dsimp only
      rw [lastGeneration_snoc, if_pos rfl]
    · exact ⟨h.log, h.last, h.seen_le, fun hphase => by cases hphase⟩
    · have hskip : LogOf config s.publications (σ.log ++ [⟨s.version, offer, false⟩]) :=
        h.log.note hoffer (iff_of_false Bool.false_ne_true fun hsent => hfits hsent.1)
      refine ⟨hskip, ?_, h.seen_le, fun _ => Or.inr (hfound false)⟩
      rw [lastGeneration_snoc, if_neg Bool.false_ne_true]
      exact h.last
    · have hskip : LogOf config s.publications (σ.log ++ [⟨s.version, offer, false⟩]) :=
        h.log.note hoffer
          (iff_of_false Bool.false_ne_true fun hsent => hnew (h.last ▸ hsent.2))
      refine ⟨hskip, ?_, h.seen_le, fun _ => Or.inr (hfound false)⟩
      rw [lastGeneration_snoc, if_neg Bool.false_ne_true]
      exact h.last

lemma Records.step (henabled : config.enabled = true) (h : Records config s) (op : Op) :
    Records config (step config s op) := by
  cases op with
  | submit c => exact h.submit c
  | start =>
    refine ⟨h.published, h.numbered, fun σ hσ => ?_⟩
    obtain rfl := Option.some.inj hσ
    exact h.start.congr rfl
  | wake =>
    refine ⟨h.published, h.numbered, fun σ hσ => ?_⟩
    obtain ⟨σ', hσ', rfl⟩ := Option.map_eq_some_iff.mp hσ
    exact (h.session σ' hσ').wake.congr rfl
  | observe written =>
    refine ⟨h.published, h.numbered, fun σ hσ => ?_⟩
    obtain ⟨σ', hσ', rfl⟩ := Option.map_eq_some_iff.mp hσ
    exact ((h.session σ' hσ').observe henabled h written).congr rfl

lemma records_after (henabled : config.enabled = true) (ops : List Op) :
    Records config (after config ops) := by
  induction ops using List.reverseRecOn with
  | nil => exact ⟨rfl, fun o ho => absurd ho List.not_mem_nil, fun σ hσ => by cases hσ⟩
  | append_singleton ops op ih =>
    rw [after, List.foldl_append]
    exact ih.step henabled op

/-- At a quiet moment the offer in the channel was sent on, and nothing after it. -/
lemma Attends.settled (hpublished : s.offers.published = s.publications.getLast?)
    (h : Attends config s σ) (hforwards : Forwards config σ.log) (hquiet : Quiet s σ)
    {offer : LocalClipboardOffer} (hoffer : s.offers.published = some offer)
    (hfits : config.Fits offer) : (lastForwarded σ.log).map (·.version) = some s.version := by
  rw [hpublished] at hoffer
  have hpos : 0 < s.version := List.length_pos_iff.mpr fun hnil => by
    rw [hnil] at hoffer
    cases hoffer
  rcases h.looked hquiet.1 with hzero | ⟨p, hp, hseen⟩
  · rw [← hquiet.2] at hpos
    omega
  have hmem : p ∈ σ.log := List.mem_of_getLast? hp
  have hversion : p.version = s.version :=
    le_antisymm (h.log.version_le hmem) (hquiet.2 ▸ hseen)
  have hofferp : p.offer = offer := by
    have hget := (h.log.found p hmem).2
    rw [hversion, version, ← List.getLast?_eq_getElem?, hoffer] at hget
    exact (Option.some.inj hget).symm
  obtain ⟨q, hq, hqsent, hqversion⟩ := hforwards.exists_sent hmem (hofferp ▸ hfits)
  have hqfilter : q ∈ σ.log.filter (·.sent) := List.mem_filter.mpr ⟨hq, hqsent⟩
  unfold lastForwarded
  cases hlast : (σ.log.filter (·.sent)).getLast? with
  | none =>
    rw [List.getLast?_eq_none_iff.mp hlast] at hqfilter
    cases hqfilter
  | some r =>
    have hr := (List.mem_filter.mp (List.mem_of_getLast? hlast)).1
    have hle : q.version ≤ r.version := by
      have hordered := h.log.ordered.filter (·.sent)
      obtain ⟨front, hfront⟩ := List.getLast?_eq_some_iff.mp hlast
      rw [hfront] at hordered hqfilter
      rcases List.mem_append.mp hqfilter with hq' | hq'
      · exact (List.pairwise_append.mp hordered).2.2 q hq' r List.mem_cons_self
      · rw [List.mem_singleton.mp hq']
    have := h.log.version_le hr
    rw [Option.map_some]
    congr 1
    omega

/-- What one process of the app asks for, as the user copies: it numbers the copies from 1. -/
def uiRequests (copies : List Transfer) : List Op :=
  (copies.zipIdx 1).flatMap fun (t, generation) =>
    t.slices.zipIdx.map fun (data, index) => .submit (t.chunk generation index data)

lemma letter_small {letter : Char} (h : letter.utf8Size = 1) :
    ∀ slice ∈ [[letter]], Text.utf8Len slice ≤ clipboardChunkBytes := by
  intro slice hslice
  rw [List.mem_singleton.mp hslice, Text.utf8Len_cons, h]
  decide

/-- A text of one letter. -/
def letterCopy (letter : Char) (h : letter.utf8Size = 1) : Transfer :=
  ⟨.text, 0, 0, [[letter]], Nat.one_pos, Nat.le_of_ble_eq_true rfl, letter_small h⟩

/-- The user copies a text during the session, and copies it again. -/
def copiedTwice : List Op :=
  .start :: .observe true ::
    uiRequests [letterCopy 'a' rfl] ++ [.wake, .observe true] ++
    (uiRequests [letterCopy 'a' rfl, letterCopy 'a' rfl]).drop 1 ++ [.wake, .observe true]

/-- Two copies are sent on, the app is started again, and the user copies once more. -/
def copiedAfterRestart : List Op :=
  uiRequests [letterCopy 'a' rfl, letterCopy 'b' rfl] ++ [.start, .observe true] ++
    uiRequests [letterCopy 'c' rfl] ++ [.wake, .observe true]

end OfferRelay

end TheKvm

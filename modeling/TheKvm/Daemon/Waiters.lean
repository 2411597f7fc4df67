import TheKvm.Daemon.Approvals

/-!
Waiters of one device side by side.

A decision is held in the channel of its registration, so each wait answers what was decided of
that registration. Finishing and cancelling remove by key, and the key may by then be another
registration's.
-/

namespace TheKvm.Approvals

variable {κ : Type} [DecidableEq κ] {rules : Rules κ} {q : Queue κ} {key : κ} {t t' : ℕ}

namespace Queue

/-- The entries have different keys, and each waits for the decision of its registration. -/
structure Tidy (q : Queue κ) : Prop where
  nodup : (q.pending.map (·.1)).Nodup
  entry : ∀ key (t : ℕ), (key, t) ∈ q.pending →
    ∃ r, q.registrations[t]? = some r ∧ r.key = key ∧ r.channel = .empty

/-- The decision was applied to the registration. -/
def Applied (q : Queue κ) (t : ℕ) (approved : Bool) : Prop :=
  ∃ d ∈ q.decided, d.ticket = t ∧ d.approved = approved

/-- What a waiter came to is what the channel held. -/
def Told (r : Registration κ) : Prop :=
  ∀ decision, r.waiter = .resolved decision ∨ r.waiter = .finished decision →
    (decision = true ↔ r.channel = .sent true)

structure Sound (q : Queue κ) : Prop where
  tidy : q.Tidy
  applied : ∀ (t : ℕ) approved, q.Applied t approved ↔
    ∃ r, q.registrations[t]? = some r ∧ r.channel = .sent approved
  told : ∀ (t : ℕ) r, q.registrations[t]? = some r → Told r

/-! ### Entries -/

lemma listed_some : q.listed key = some t → (key, t) ∈ q.pending := by
  intro h
  obtain ⟨⟨k, s⟩, hfind, rfl⟩ := Option.map_eq_some_iff.mp h
  have hkey : k = key := by simpa using List.find?_some hfind
  rw [← hkey]
  exact List.mem_of_find?_eq_some hfind

lemma listed_none (h : q.listed key = none) {e : κ × ℕ} (he : e ∈ q.pending) : e.1 ≠ key := by
  have hfind := List.find?_eq_none.mp (Option.map_eq_none_iff.mp h) e he
  simpa using hfind

/-- A key lists one ticket. -/
lemma Tidy.unique (h : q.Tidy) (ht : q.listed key = some t) {e : κ × ℕ} (he : e ∈ q.pending)
    (hkey : e.1 = key) : e.2 = t := by
  have hmem := listed_some ht
  have heq : e = (key, t) := List.inj_on_of_nodup_map h.nodup he hmem hkey
  rw [heq]

omit [DecidableEq κ] in
lemma registrations_modify (f : Registration κ → Registration κ) (t' : ℕ) :
    (q.modify t f).registrations[t']? =
      if t = t' then (q.registrations[t']?).map f else q.registrations[t']? := by
  rw [modify, List.getElem?_modify]
  split_ifs <;> simp

/-! ### What a step keeps -/

lemma remove_none (h : q.listed key = none) : q.remove key = q := by
  rw [remove, h]

lemma remove_some (h : q.listed key = some t) :
    q.remove key =
      { q.modify t fun r => { r with channel := .closed } with
        pending := q.pending.filter (·.1 ≠ key) } := by
  rw [remove, h]

lemma Tidy.filter (h : q.Tidy) {q' : Queue κ}
    (hpending : q'.pending = q.pending.filter (·.1 ≠ key))
    (hkeep : ∀ key' (t' : ℕ), (key', t') ∈ q.pending → key' ≠ key →
      q'.registrations[t']? = q.registrations[t']?) : q'.Tidy := by
  refine ⟨?_, fun key' t' hmem => ?_⟩
  · rw [hpending]
    exact h.nodup.sublist (List.filter_sublist.map _)
  rw [hpending] at hmem
  obtain ⟨hmem, hne⟩ := List.mem_filter.mp hmem
  have hne : key' ≠ key := by simpa using hne
  obtain ⟨r, hr, hrest⟩ := h.entry key' t' hmem
  exact ⟨r, (hkeep key' t' hmem hne).trans hr, hrest⟩

/-- Another key's ticket is another ticket. -/
lemma Tidy.ne_of_key_ne (h : q.Tidy) (ht : q.listed key = some t) {key' : κ}
    (ht' : (key', t') ∈ q.pending) (hne : key' ≠ key) : t ≠ t' := by
  rintro rfl
  obtain ⟨r, hr, hkey, -⟩ := h.entry key t (listed_some ht)
  obtain ⟨r', hr', hkey', -⟩ := h.entry key' t ht'
  obtain rfl := Option.some.inj (hr.symm.trans hr')
  exact hne (hkey'.symm.trans hkey)

omit [DecidableEq κ] in
/-- A step of the waiter leaves the queue sound, if the waiter comes to what the channel held. -/
lemma Sound.modify (h : q.Sound) {f : Registration κ → Registration κ}
    (hkey : ∀ r, (f r).key = r.key) (hchannel : ∀ r, (f r).channel = r.channel)
    (htold : ∀ r, q.registrations[t]? = some r → Told (f r)) : (q.modify t f).Sound := by
  have hback : ∀ (t' : ℕ) r, (q.modify t f).registrations[t']? = some r →
      ∃ r', q.registrations[t']? = some r' ∧ r.channel = r'.channel ∧ Told r := by
    intro t' r hr
    rw [registrations_modify] at hr
    split_ifs at hr with heq
    · obtain ⟨r', hr', rfl⟩ := Option.map_eq_some_iff.mp hr
      exact ⟨r', hr', hchannel r', htold r' (heq ▸ hr')⟩
    · exact ⟨r, hr, rfl, h.told t' r hr⟩
  have hforth : ∀ (t' : ℕ) r, q.registrations[t']? = some r →
      ∃ r', (q.modify t f).registrations[t']? = some r' ∧ r'.key = r.key ∧
        r'.channel = r.channel := by
    intro t' r hr
    rw [registrations_modify, hr]
    split_ifs
    · exact ⟨f r, rfl, hkey r, hchannel r⟩
    · exact ⟨r, rfl, rfl, rfl⟩
  refine ⟨⟨h.tidy.nodup, fun key t' hmem => ?_⟩, fun t' approved => ?_, fun t' r hr => ?_⟩
  · obtain ⟨r, hr, hrkey, hrchannel⟩ := h.tidy.entry key t' hmem
    obtain ⟨r', hr', hkey', hchannel'⟩ := hforth t' r hr
    exact ⟨r', hr', hkey'.trans hrkey, hchannel'.trans hrchannel⟩
  · refine (h.applied t' approved).trans ⟨?_, ?_⟩
    · rintro ⟨r, hr, hsent⟩
      obtain ⟨r', hr', -, hchannel'⟩ := hforth t' r hr
      exact ⟨r', hr', hchannel'.trans hsent⟩
    · rintro ⟨r, hr, hsent⟩
      obtain ⟨r', hr', hchannel', -⟩ := hback t' r hr
      exact ⟨r', hr', hchannel'.symm.trans hsent⟩
  · obtain ⟨-, -, -, htold'⟩ := hback t' r hr
    exact htold'

/-- Closing the channel of an entry tells its waiter nothing new. -/
lemma Sound.remove (h : q.Sound) (key : κ) : (q.remove key).Sound := by
  rcases hlisted : q.listed key with _ | t
  · rwa [remove_none hlisted]
  obtain ⟨r, hr, -, hempty⟩ := h.tidy.entry key t (listed_some hlisted)
  rw [remove_some hlisted]
  have hregs : ∀ t' : ℕ, (q.modify t fun r => { r with channel := .closed }).registrations[t']? =
      if t = t' then some { r with channel := .closed } else q.registrations[t']? := by
    intro t'
    rw [registrations_modify]
    split_ifs with heq
    · rw [← heq, hr, Option.map_some]
    · rfl
  refine ⟨h.tidy.filter rfl fun key' t' hmem hne => ?_, fun t' approved => ?_, fun t' r' hr' => ?_⟩
  · rw [hregs, if_neg (h.tidy.ne_of_key_ne hlisted hmem hne)]
  · refine (h.applied t' approved).trans ?_
    simp only [hregs]
    split_ifs with heq
    · subst heq
      simp [hr, hempty]
    · exact Iff.rfl
  · rw [hregs] at hr'
    split_ifs at hr' with heq
    · obtain rfl := Option.some.inj hr'
      intro decision hdecision
      have htold := (h.told t r hr decision hdecision).not
      simp only [hempty, reduceCtorEq, not_false_eq_true, iff_true] at htold
      simp [htold]
    · exact h.told t' r' hr'

omit [DecidableEq κ] in
lemma registration_snoc {l : List (Registration κ)} {new r : Registration κ}
    (h : (l ++ [new])[t]? = some r) : l[t]? = some r ∨ r = new := by
  rw [List.getElem?_append] at h
  split_ifs at h
  · exact Or.inl h
  · exact Or.inr (List.mem_singleton.mp (List.mem_of_getElem? h))

lemma Sound.register (h : q.Sound) (key : κ) : (q.register rules key).1.Sound := by
  rw [Queue.register]
  split_ifs with hfull hlisted hfrozen
  · exact h
  · exact h
  · exact h
  have hnone : q.listed key = none := by simpa using hlisted
  have hregs : ∀ t' : ℕ, t' < q.registrations.length →
      (q.registrations ++ [⟨key, .empty, .held⟩])[t']? = q.registrations[t']? :=
    fun t' ht' => List.getElem?_append_left ht'
  refine ⟨⟨?_, fun key' t' hmem => ?_⟩, fun t' approved => ?_, fun t' r hr => ?_⟩
  · rw [List.map_append, List.nodup_append]
    refine ⟨h.tidy.nodup, List.nodup_singleton key, fun key' hkey' key'' hkey'' => ?_⟩
    obtain ⟨e, he, rfl⟩ := List.mem_map.mp hkey'
    obtain rfl := List.mem_singleton.mp hkey''
    exact listed_none hnone he
  · rcases List.mem_append.mp hmem with hmem | hmem
    · obtain ⟨r, hr, hrest⟩ := h.tidy.entry key' t' hmem
      exact ⟨r, (hregs t' (List.getElem?_eq_some_iff.mp hr).1).trans hr, hrest⟩
    · obtain ⟨rfl, rfl⟩ := Prod.mk.inj (List.mem_singleton.mp hmem)
      exact ⟨⟨key', .empty, .held⟩, List.getElem?_concat_length, rfl, rfl⟩
  · refine (h.applied t' approved).trans ⟨?_, ?_⟩
    · rintro ⟨r, hr, hsent⟩
      exact ⟨r, (hregs t' (List.getElem?_eq_some_iff.mp hr).1).trans hr, hsent⟩
    · rintro ⟨r, hr, hsent⟩
      rcases registration_snoc hr with hold | rfl
      · exact ⟨r, hold, hsent⟩
      · cases hsent
  · rcases registration_snoc hr with hold | rfl
    · exact h.told t' r hold
    · intro decision hdecision
      rcases hdecision with hdecision | hdecision <;> cases hdecision

omit [DecidableEq κ] in
/-- Who listens has not been told. -/
lemma told_of_listens {r : Registration κ} (h : r.listens = true) (channel : Channel) :
    Told { r with channel } := by
  intro decision hdecision
  rcases r with ⟨key, channel', waiter⟩
  rcases hdecision with rfl | rfl <;> cases h

lemma Sound.decide (h : q.Sound) (key : κ) (approved : Bool) :
    (q.decide rules key approved).1.Sound := by
  rw [Queue.decide]
  rcases hlisted : q.listed key with _ | t
  · exact h
  obtain ⟨r, hr, -, hempty⟩ := h.tidy.entry key t (listed_some hlisted)
  simp only [hr, Option.any_some]
  rcases hlistens : r.listens with _ | _
  · exact h.remove key
  have hregs : ∀ t' : ℕ,
      (q.modify t fun r => { r with channel := .sent approved }).registrations[t']? =
        if t = t' then some { r with channel := .sent approved } else q.registrations[t']? := by
    intro t'
    rw [registrations_modify]
    split_ifs with heq
    · rw [← heq, hr, Option.map_some]
    · rfl
  rw [if_pos rfl]
  refine ⟨h.tidy.filter rfl fun key' t' hmem hne => ?_, fun t' approved' => ?_, fun t' r' hr' => ?_⟩
  · rw [hregs, if_neg (h.tidy.ne_of_key_ne hlisted hmem hne)]
  · have hbefore := h.applied t' approved'
    simp only [Applied, List.mem_append, List.mem_singleton, or_and_right, exists_or,
      exists_eq_left, hregs] at hbefore ⊢
    rw [hbefore]
    split_ifs with heq
    · subst heq
      simp [hr, hempty]
    · simp [heq]
  · rw [hregs] at hr'
    split_ifs at hr' with heq
    · obtain rfl := Option.some.inj hr'
      exact told_of_listens hlistens _
    · exact h.told t' r' hr'

omit [DecidableEq κ] in
lemma Sound.resolve (h : q.Sound) (t : ℕ) :
    (q.modify t fun r => { r with waiter := q.resolve rules r }).Sound := by
  refine h.modify (fun _ => rfl) (fun _ => rfl) fun r hr decision hdecision => ?_
  have htold := h.told t r hr decision
  simp only [Queue.resolve] at hdecision
  rcases hwaiter : r.waiter with _ | since | d | d | _
  · simp [hwaiter] at hdecision
  · rw [hwaiter] at hdecision
    rcases hchannel : r.channel with _ | approved | _
    · simp only [hchannel] at hdecision
      split_ifs at hdecision <;> simp at hdecision
      simp [← hdecision]
    · simp only [hchannel, Waiter.resolved.injEq, reduceCtorEq, or_false] at hdecision
      simp [hdecision]
    · simp only [hchannel, Waiter.resolved.injEq, reduceCtorEq, or_false] at hdecision
      simp [← hdecision]
  · rw [hwaiter] at hdecision htold
    exact htold hdecision
  · rw [hwaiter] at hdecision htold
    exact htold hdecision
  · simp [hwaiter] at hdecision

/-- Removing an entry leaves every waiter where it is. -/
lemma waiter_remove {r : Registration κ} (h : (q.remove key).registrations[t]? = some r) :
    ∃ r', q.registrations[t]? = some r' ∧ r.waiter = r'.waiter := by
  rcases hlisted : q.listed key with _ | t'
  · rw [remove_none hlisted] at h
    exact ⟨r, h, rfl⟩
  · rw [remove_some hlisted] at h
    have hregs := registrations_modify (q := q) (t := t') (fun r => { r with channel := .closed }) t
    rw [h] at hregs
    split_ifs at hregs
    · obtain ⟨r', hr', rfl⟩ := Option.map_eq_some_iff.mp hregs.symm
      exact ⟨r', hr', rfl⟩
    · exact ⟨r, hregs.symm, rfl⟩

lemma Sound.step (h : q.Sound) (op : Op κ) : (q.step rules op).1.Sound := by
  cases op with
  | pass ms => exact ⟨⟨h.tidy.nodup, h.tidy.entry⟩, h.applied, h.told⟩
  | register key => exact h.register key
  | decide key approved => exact h.decide key approved
  | cancel t =>
    simp only [Queue.step]
    rcases q.registrations[t]? with _ | r
    · exact h
    · exact h.remove r.key
  | wait t =>
    refine h.modify (fun r => by split_ifs <;> rfl) (fun r => by split_ifs <;> rfl) ?_
    intro r hr decision hdecision
    have htold := h.told t r hr decision
    split_ifs at hdecision ⊢
    · rcases hdecision with hdecision | hdecision <;> cases hdecision
    · exact htold hdecision
  | resolve t => exact h.resolve t
  | finish t =>
    simp only [Queue.step]
    rcases hr : q.registrations[t]? with _ | ⟨key, channel, _ | _ | decision | _ | _⟩
    case some.resolved =>
      refine (h.remove key).modify (fun _ => rfl) (fun _ => rfl) fun r' hr' d hd => ?_
      obtain ⟨r, hbefore, hwaiter⟩ := waiter_remove hr'
      obtain rfl := Option.some.inj (hr.symm.trans hbefore)
      obtain rfl : decision = d := by simpa using hd
      exact (h.remove key).told t r' hr' decision (Or.inl hwaiter)
    all_goals exact h
  | drop t =>
    refine h.modify (fun r => ?_) (fun r => ?_) fun r hr decision hdecision => ?_
    · unfold abandon
      split <;> rfl
    · unfold abandon
      split <;> rfl
    · have htold := h.told t r hr decision
      unfold abandon at hdecision ⊢
      split at hdecision <;> simp_all

/-! ### Closed channels -/

/-- The registration's channel is closed. -/
def Closed (q : Queue κ) (t : ℕ) : Prop :=
  ∃ r, q.registrations[t]? = some r ∧ r.channel = .closed

lemma Closed.unlisted (hsound : q.Sound) (h : q.Closed t) : q.listed key ≠ some t := by
  intro hlisted
  obtain ⟨r, hr, hclosed⟩ := h
  obtain ⟨r', hr', -, hempty⟩ := hsound.tidy.entry key t (listed_some hlisted)
  obtain rfl := Option.some.inj (hr.symm.trans hr')
  cases hclosed.symm.trans hempty

omit [DecidableEq κ] in
lemma Closed.modify (h : q.Closed t) (f : Registration κ → Registration κ)
    (hf : t' = t → ∀ r, (f r).channel = r.channel) : (q.modify t' f).Closed t := by
  obtain ⟨r, hr, hclosed⟩ := h
  unfold Closed
  rw [registrations_modify, hr]
  split_ifs with heq
  · exact ⟨f r, rfl, (hf heq r).trans hclosed⟩
  · exact ⟨r, rfl, hclosed⟩

lemma Closed.remove (h : q.Closed t) (key : κ) : (q.remove key).Closed t := by
  obtain ⟨r, hr, hclosed⟩ := h
  rcases hlisted : q.listed key with _ | t'
  · rw [remove_none hlisted]
    exact ⟨r, hr, hclosed⟩
  · have hregs := registrations_modify (q := q) (t := t') (fun r => { r with channel := .closed }) t
    rw [hr] at hregs
    rw [remove_some hlisted]
    unfold Closed
    simp only [hregs]
    split_ifs
    · exact ⟨_, rfl, rfl⟩
    · exact ⟨r, rfl, hclosed⟩

/-- A channel that is closed stays closed. -/
lemma Closed.step (hsound : q.Sound) (h : q.Closed t) (op : Op κ) :
    (q.step rules op).1.Closed t := by
  cases op with
  | pass ms => exact h
  | register key =>
    obtain ⟨r, hr, hclosed⟩ := h
    have hlt := (List.getElem?_eq_some_iff.mp hr).1
    simp only [Queue.step, Queue.register]
    split_ifs
    · exact ⟨r, hr, hclosed⟩
    · exact ⟨r, hr, hclosed⟩
    · exact ⟨r, hr, hclosed⟩
    · exact ⟨r, (List.getElem?_append_left hlt).trans hr, hclosed⟩
  | decide key approved =>
    simp only [Queue.step, Queue.decide]
    rcases hlisted : q.listed key with _ | t'
    · exact h
    have hne : t' ≠ t := by
      rintro rfl
      exact h.unlisted hsound hlisted
    dsimp only
    split_ifs
    · exact h.modify (fun r => { r with channel := .sent approved }) fun heq => absurd heq hne
    · exact h.remove key
  | cancel t' =>
    simp only [Queue.step]
    rcases q.registrations[t']? with _ | r
    · exact h
    · exact h.remove r.key
  | wait t' => exact h.modify _ fun _ r => by split_ifs <;> rfl
  | resolve t' => exact h.modify _ fun _ r => rfl
  | finish t' =>
    simp only [Queue.step]
    split
    · exact (h.remove _).modify _ fun _ r => rfl
    · exact h
  | drop t' =>
    refine h.modify _ fun _ r => ?_
    unfold abandon
    split <;> rfl

/-- Who waits on a closed channel hears no. -/
lemma Closed.finish (hsound : q.Sound) (h : q.Closed t) :
    (q.step rules (.finish t)).2 ≠ .waited true := by
  obtain ⟨r, hr, hclosed⟩ := h
  rcases r with ⟨key, channel, waiter⟩
  simp only [Queue.step, hr]
  rcases waiter with _ | _ | decision | _ | _
  case resolved =>
    have htold := hsound.told t _ hr decision (Or.inl rfl)
    rw [hclosed] at htold
    simpa using htold
  all_goals exact Answer.noConfusion

/-! ### Other registrations -/

/-- The registration is listed as before, with its channel and its waiter as before. -/
structure Untouched (q q' : Queue κ) (t : ℕ) : Prop where
  listed : (∃ key, (key, t) ∈ q'.pending) ↔ ∃ key, (key, t) ∈ q.pending
  registration : q'.registrations[t]? = q.registrations[t]?

omit [DecidableEq κ] in
lemma untouched_modify (f : Registration κ → Registration κ) (h : t' ≠ t) :
    Untouched q (q.modify t f) t' :=
  ⟨Iff.rfl, by rw [registrations_modify, if_neg (Ne.symm h)]⟩

/-- A removal touches no other registration exactly if the key lists no other. -/
lemma Tidy.untouched_remove (h : q.Tidy) :
    (∀ t' ≠ t, Untouched q (q.remove key) t') ↔ ∀ other, q.listed key = some other → other = t := by
  constructor
  · intro huntouched other hlisted
    by_contra hne
    have hmem := listed_some hlisted
    obtain ⟨key', hkey'⟩ := (huntouched other hne).listed.mpr ⟨key, hmem⟩
    rw [remove_some hlisted] at hkey'
    obtain ⟨hkey', hother⟩ := List.mem_filter.mp hkey'
    exact h.ne_of_key_ne hlisted hkey' (by simpa using hother) rfl
  · intro hown t' hne
    rcases hlisted : q.listed key with _ | other
    · rw [remove_none hlisted]
      exact ⟨Iff.rfl, rfl⟩
    · obtain rfl := hown other hlisted
      rw [remove_some hlisted]
      refine ⟨exists_congr fun key' => ?_, (untouched_modify _ hne).registration⟩
      refine ⟨fun hmem => (List.mem_filter.mp hmem).1, fun hmem => List.mem_filter.mpr ⟨hmem, ?_⟩⟩
      have hkey : key' ≠ key := fun hkey => hne (h.unique hlisted hmem hkey)
      simpa using hkey

end Queue

/-- The registration whose waiter takes the step. -/
def Op.of : Op κ → Option ℕ
  | .cancel t => some t
  | .wait t => some t
  | .resolve t => some t
  | .finish t => some t
  | .drop t => some t
  | _ => none

/-- A waiter's step touches no other registration. -/
def Isolated (rules : Rules κ) (q : Queue κ) (op : Op κ) : Prop :=
  ∀ t, op.of = some t → ∀ t' ≠ t, Queue.Untouched q (q.step rules op).1 t'

/-- Each wait that returned said yes exactly if a yes was applied to its registration. -/
def Answered (q : Queue κ) : Prop :=
  ∀ (t : ℕ) r decision, q.registrations[t]? = some r → r.waiter = .finished decision →
    (decision = true ↔ q.Applied t true)

/-- A waiter is cancelled, or finishes, whose key lists another registration by now. -/
def Clobbers (q : Queue κ) (op : Op κ) : Prop :=
  ∃ t r other, q.registrations[t]? = some r ∧
    (op = .cancel t ∨ op = .finish t ∧ ∃ decision, r.waiter = .resolved decision) ∧
    q.listed r.key = some other ∧ other ≠ t

omit [DecidableEq κ] in
lemma Queue.Sound.answered (h : q.Sound) : Answered q := by
  intro t r decision hr hfinished
  rw [h.applied t true, h.told t r hr decision (Or.inr hfinished), hr]
  simp

/-- A removal under a registration's key. -/
lemma clobbers_iff {op : Op κ} {r : Registration κ} (hr : q.registrations[t]? = some r)
    (hop : op = .cancel t ∨ op = .finish t ∧ ∃ decision, r.waiter = .resolved decision) :
    Clobbers q op ↔ ¬∀ other, q.listed r.key = some other → other = t := by
  constructor
  · rintro ⟨t', r', other, hr', hop', hlisted, hne⟩ hown
    obtain rfl : t' = t := by
      rcases hop with rfl | ⟨rfl, -⟩ <;> rcases hop' with heq | ⟨heq, -⟩ <;> cases heq <;> rfl
    obtain rfl := Option.some.inj (hr.symm.trans hr')
    exact hne (hown other hlisted)
  · intro hown
    push Not at hown
    obtain ⟨other, hlisted, hne⟩ := hown
    exact ⟨t, r, other, hr, hop, hlisted, hne⟩

lemma isolated_self {op : Op κ} (h : (q.step rules op).1 = q) : Isolated rules q op := by
  intro t _ t' _
  rw [h]
  exact ⟨Iff.rfl, rfl⟩

lemma isolated_modify {op : Op κ} {f : Registration κ → Registration κ} (hop : op.of = some t)
    (h : (q.step rules op).1 = q.modify t f) : Isolated rules q op := by
  intro t₁ ht₁ t' hne
  obtain rfl := Option.some.inj (hop.symm.trans ht₁)
  rw [h]
  exact Queue.untouched_modify f hne

lemma not_clobbers_of_unlisted {op : Op κ} (hop : op.of = some t)
    (h : ∀ r, q.registrations[t]? = some r →
      op ≠ .cancel t ∧ (op = .finish t → ∀ decision, r.waiter ≠ .resolved decision)) :
    ¬Clobbers q op := by
  rintro ⟨t', r, other, hr, rfl | ⟨rfl, decision, hresolved⟩, -⟩ <;>
    obtain rfl := Option.some.inj hop
  · exact (h r hr).1 rfl
  · exact (h r hr).2 rfl decision hresolved

lemma isolated_cancel (h : q.Sound) (t : ℕ) :
    Isolated rules q (.cancel t) ↔ ¬Clobbers q (.cancel t) := by
  rcases hr : q.registrations[t]? with _ | r
  · refine iff_of_true (isolated_self (by simp only [Queue.step, hr])) ?_
    exact not_clobbers_of_unlisted rfl fun r hr' => by cases hr.symm.trans hr'
  · rw [clobbers_iff hr (Or.inl rfl), not_not, ← h.tidy.untouched_remove]
    simp only [Isolated, Op.of, Option.some.injEq, forall_eq', Queue.step, hr]

lemma isolated_finish (h : q.Sound) (t : ℕ) :
    Isolated rules q (.finish t) ↔ ¬Clobbers q (.finish t) := by
  rcases hr : q.registrations[t]? with _ | ⟨key, channel, waiter⟩
  · refine iff_of_true (isolated_self (by simp only [Queue.step, hr])) ?_
    exact not_clobbers_of_unlisted rfl fun r hr' => by cases hr.symm.trans hr'
  by_cases hresolved : ∃ decision, waiter = .resolved decision
  · obtain ⟨decision, rfl⟩ := hresolved
    rw [clobbers_iff hr (Or.inr ⟨rfl, decision, rfl⟩), not_not, ← h.tidy.untouched_remove]
    simp only [Isolated, Op.of, Option.some.injEq, forall_eq', Queue.step, hr]
    refine forall₂_congr fun t' hne => ?_
    have hregs : ((q.remove key).modify t fun r => { r with waiter := .finished decision })
        |>.registrations[t']? = (q.remove key).registrations[t']? := by
      rw [Queue.registrations_modify, if_neg (Ne.symm hne)]
    exact ⟨fun hu => ⟨hu.listed, hregs.symm.trans hu.registration⟩,
      fun hu => ⟨hu.listed, hregs.trans hu.registration⟩⟩
  · have hself : (q.step rules (.finish t)).1 = q := by
      cases waiter with
      | resolved decision => exact absurd ⟨decision, rfl⟩ hresolved
      | _ => simp only [Queue.step, hr]
    refine iff_of_true (isolated_self hself) (not_clobbers_of_unlisted rfl fun r hr' => ?_)
    obtain rfl := Option.some.inj (hr.symm.trans hr')
    exact ⟨by simp, fun _ decision hdecision => hresolved ⟨decision, hdecision⟩⟩

/-- A step is isolated exactly if it removes no entry of another registration. -/
lemma isolated_step_iff (h : q.Sound) (op : Op κ) :
    Isolated rules q op ↔ ¬Clobbers q op := by
  cases op with
  | cancel t => exact isolated_cancel h t
  | finish t => exact isolated_finish h t
  | wait t =>
    exact iff_of_true (isolated_modify rfl rfl) (not_clobbers_of_unlisted rfl (by simp))
  | resolve t =>
    exact iff_of_true (isolated_modify rfl rfl) (not_clobbers_of_unlisted rfl (by simp))
  | drop t =>
    exact iff_of_true (isolated_modify rfl rfl) (not_clobbers_of_unlisted rfl (by simp))
  | _ =>
    refine iff_of_true (fun t ht => by cases ht) ?_
    rintro ⟨t, r, other, -, hop | ⟨hop, -⟩, -⟩ <;> cases hop

/-! ### Runs -/

lemma sound_after (rules : Rules κ) (ops : List (Op κ)) : (after rules ops).Sound := by
  refine Trace.always (I := fun _ q => Queue.Sound q) ?_ fun m op hm => hm.step op
  refine ⟨⟨List.nodup_nil, fun key t h => absurd h List.not_mem_nil⟩, fun t approved => ?_,
    fun t r h => by simp [Queue.empty] at h⟩
  simp [Queue.Applied, Queue.empty]

/-- **Approval waiters are isolated.** Along a run every wait that returns says what was decided
of its registration; and no waiter's step touches another registration, exactly if no waiter is
cancelled or finishes while its key lists another. -/
theorem waiters_isolated_iff (rules : Rules κ) (ops : List (Op κ)) :
    ((∀ before, before <+: ops → Answered (after rules before)) ∧
      Trace.Each (fun before op => Isolated rules (after rules before) op) ops) ↔
      Trace.Each (fun before op => ¬Clobbers (after rules before) op) ops := by
  rw [and_iff_right fun before _ => (sound_after rules before).answered]
  exact Trace.each_congr fun before op _ => isolated_step_iff (sound_after rules before) op

/-- A device is allowed, asks again, and then its first waiter comes for the decision. -/
def askedAgain : List (Op String) :=
  [.register "a", .decide "a" true, .register "a", .wait 0, .resolve 0]

theorem finish_denies_the_next :
    (after pairingApprovals askedAgain).listed "a" = some 1 ∧
      (after pairingApprovals (askedAgain ++ [.finish 0])).listed "a" = none ∧
      ((after pairingApprovals (askedAgain ++ [.finish 0, .wait 1, .resolve 1])).registrations[1]?)
        = some ⟨"a", .closed, .resolved false⟩ := by
  decide

end TheKvm.Approvals

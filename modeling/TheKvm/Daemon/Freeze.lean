import TheKvm.Daemon.Approvals
import Mathlib.Algebra.Order.Group.Nat

/-!
The pause after repeated denials.

The denials of a device are counted in a window that starts at the first of them, so five that
come close together can fall into two windows; and the denial that starts a new window also
drops the pause that the last one had earned.
-/

namespace TheKvm.Approvals

variable {κ : Type} [DecidableEq κ] {rules : Rules κ} {q : Queue κ}

/-! ### Denials of a device -/

/-- The times of the denials of a device since it was last approved. -/
def denials (rules : Rules κ) (log : List (Decision κ)) (device : String) : List Instant :=
  log.foldl (fun times d =>
    if rules.device d.key = device then if d.approved then [] else times ++ [d.time]
    else times) []

/-- Four of the denials, with no approval since, lie less than the window before the time. -/
def Nears (rules : Rules κ) (log : List (Decision κ)) (device : String) (t : Instant) : Prop :=
  ∃ four : List Instant, four.length + 1 = maxPairingRejects ∧
    (∀ s ∈ four, t < s + rejectWindowMs) ∧ four.Sublist (denials rules log device)

/-- Five denials of the device within less than the window, with no approval in between, and
the fifth at the time. -/
def Five (rules : Rules κ) (log : List (Decision κ)) (device : String) (t : Instant) : Prop :=
  ∃ before d, before ++ [d] <+: log ∧ rules.device d.key = device ∧ d.approved = false ∧
    d.time = t ∧ Nears rules before device t

omit [DecidableEq κ] in
lemma denials_snoc (log : List (Decision κ)) (d : Decision κ) (device : String) :
    denials rules (log ++ [d]) device =
      if rules.device d.key = device then
        if d.approved then [] else denials rules log device ++ [d.time]
      else denials rules log device := by
  unfold denials
  rw [List.foldl_append]
  rfl

omit [DecidableEq κ] in
lemma five_snoc {log : List (Decision κ)} {d : Decision κ} {device : String} {t : Instant} :
    Five rules (log ++ [d]) device t ↔ Five rules log device t ∨
      rules.device d.key = device ∧ d.approved = false ∧ d.time = t ∧
        Nears rules log device t := by
  constructor
  · rintro ⟨before, d', hpre, hrest⟩
    rcases List.prefix_concat_iff.mp hpre with heq | hpre
    · obtain ⟨rfl, hd⟩ := List.append_inj' heq rfl
      obtain rfl := List.singleton_inj.mp hd
      exact Or.inr hrest
    · exact Or.inl ⟨before, d', hpre, hrest⟩
  · rintro (⟨before, d', hpre, hrest⟩ | hrest)
    · exact ⟨before, d', hpre.trans (List.prefix_append _ _), hrest⟩
    · exact ⟨log, d, by rfl, hrest⟩

/-! ### What a step does to the denials -/

/-- A decision under the key reaches its registration. -/
def Queue.Taken (q : Queue κ) (key : κ) : Prop :=
  ∃ (t : ℕ) (r : Registration κ),
    q.listed key = some t ∧ q.registrations[t]? = some r ∧ r.listens = true

/-- A step applies a decision, or leaves the decisions as they are and at most sweeps the
records. -/
inductive Queue.Moves (rules : Rules κ) (q q' : Queue κ) : Op κ → Prop
  | applied {key : κ} {approved : Bool} {t : ℕ} (htaken : q.Taken key) (hnow : q'.now = q.now)
      (hrejects : q'.rejects = q.account (rules.device key) approved)
      (hdecided : q'.decided = q.decided ++ [⟨q.now, t, key, approved⟩]) :
      Moves rules q q' (.decide key approved)
  | idle {op : Op κ} (huntaken : ∀ key approved, op = .decide key approved → ¬q.Taken key)
      (hnow : q.now ≤ q'.now) (hdecided : q'.decided = q.decided)
      (hrejects : q'.rejects = q.rejects ∨ q'.rejects = q.janitor ∧ q'.now = q.now) :
      Moves rules q q' op

lemma Queue.remove_same (key : κ) :
    (q.remove key).now = q.now ∧ (q.remove key).decided = q.decided ∧
      (q.remove key).rejects = q.rejects := by
  unfold Queue.remove
  cases q.listed key <;> exact ⟨rfl, rfl, rfl⟩

lemma Queue.moves_decide (key : κ) (approved : Bool) :
    Queue.Moves rules q (q.decide rules key approved).1 (.decide key approved) := by
  unfold Queue.decide
  rcases hlisted : q.listed key with _ | t
  · refine .idle (fun key' approved' hop => ?_) le_rfl rfl (Or.inl rfl)
    cases hop
    rintro ⟨t, r, ht, -⟩
    cases hlisted.symm.trans ht
  rcases hlistens : (q.registrations[t]?).any Registration.listens with _ | _
  · simp only [hlistens, Bool.false_eq_true, if_false]
    obtain ⟨hnow, hdecided, hrejects⟩ := Queue.remove_same (q := q) key
    refine .idle (fun key' approved' hop => ?_) hnow.ge hdecided (Or.inl hrejects)
    cases hop
    rintro ⟨t', r, ht', hr, hyes⟩
    obtain rfl := Option.some.inj (hlisted.symm.trans ht')
    simp [hr, hyes] at hlistens
  · simp only [hlistens, if_true]
    rcases hr : q.registrations[t]? with _ | r
    · simp [hr] at hlistens
    · exact .applied ⟨t, r, hlisted, hr, by simpa [hr] using hlistens⟩ rfl rfl rfl

/-- The answer says whether a decision reached its registration. -/
lemma Queue.decide_answer {key : κ} {approved : Bool} :
    (q.decide rules key approved).2 = .decided true ↔ q.Taken key := by
  unfold Queue.decide Queue.Taken
  rcases hlisted : q.listed key with _ | t
  · simp
  · rcases hr : q.registrations[t]? with _ | r
    · simp [hr]
    · rcases hlistens : r.listens with _ | _ <;> simp [hr, hlistens]

lemma Queue.moves_step (op : Op κ) : Queue.Moves rules q (q.step rules op).1 op := by
  cases op with
  | decide key approved => exact Queue.moves_decide key approved
  | pass ms => exact .idle (fun _ _ h => by cases h) (Nat.le_add_right _ _) rfl (Or.inl rfl)
  | register key =>
    refine .idle (fun _ _ h => by cases h) ?_ ?_ ?_
    all_goals
      simp only [Queue.step, Queue.register]
      split_ifs
    all_goals first | exact le_rfl | exact Or.inl rfl | exact Or.inr ⟨rfl, rfl⟩ | rfl
  | cancel t =>
    simp only [Queue.step]
    rcases q.registrations[t]? with _ | r
    · exact .idle (fun _ _ h => by cases h) le_rfl rfl (Or.inl rfl)
    · obtain ⟨hnow, hdecided, hrejects⟩ := Queue.remove_same (q := q) r.key
      exact .idle (fun _ _ h => by cases h) hnow.ge hdecided (Or.inl hrejects)
  | finish t =>
    simp only [Queue.step]
    rcases q.registrations[t]? with _ | ⟨key, channel, _ | _ | decision | _ | _⟩
    case some.resolved =>
      obtain ⟨hnow, hdecided, hrejects⟩ := Queue.remove_same (q := q) key
      exact .idle (fun _ _ h => by cases h) hnow.ge hdecided (Or.inl hrejects)
    all_goals exact .idle (fun _ _ h => by cases h) le_rfl rfl (Or.inl rfl)
  | wait t => exact .idle (fun _ _ h => by cases h) le_rfl rfl (Or.inl rfl)
  | resolve t => exact .idle (fun _ _ h => by cases h) le_rfl rfl (Or.inl rfl)
  | drop t => exact .idle (fun _ _ h => by cases h) le_rfl rfl (Or.inl rfl)

/-! ### The record -/

/-- The window of the record still runs. -/
def RejectRecord.Runs (record : RejectRecord) (now : Instant) : Prop :=
  now < record.windowStarted + rejectWindowMs

lemma denied_runs {r : RejectRecord} {now : Instant} (h : r.Runs now) :
    Queue.denied (some r) now =
      { r with
        count := r.count + 1
        frozenUntil :=
          if maxPairingRejects ≤ r.count + 1 then some (now + rejectFreezeMs)
          else r.frozenUntil } := by
  have hlt : ¬rejectWindowMs ≤ now - r.windowStarted := by
    intro hle
    have hpos : 0 < now - r.windowStarted := lt_of_lt_of_le (by decide) hle
    exact not_lt.mpr (Nat.add_le_of_le_sub' (Nat.lt_of_sub_pos hpos).le hle) h
  simp only [Queue.denied, Option.getD_some, if_neg hlt]

lemma denied_starts {record : Option RejectRecord} {now : Instant}
    (h : ∀ r, record = some r → ¬r.Runs now) : Queue.denied record now = ⟨1, now, none⟩ := by
  have hone : ¬maxPairingRejects ≤ 0 + 1 := by decide
  rcases record with _ | r
  · simp only [Queue.denied, Option.getD_none]
    rw [if_neg (by rw [Nat.sub_self]; decide), if_neg hone]
  · have hle : rejectWindowMs ≤ now - r.windowStarted :=
      Nat.le_sub_of_add_le' (not_lt.mp (h r rfl))
    simp only [Queue.denied, Option.getD_some, if_pos hle, if_neg hone]

/-- What is recorded of a device was denied: the count by denials since the window started, a
pause by five denials. -/
structure Queue.Recorded (rules : Rules κ) (q : Queue κ) : Prop where
  past : ∀ d ∈ q.decided, d.time ≤ q.now
  started : ∀ device r, q.rejects device = some r → r.windowStarted ≤ q.now
  counted : ∀ device r, q.rejects device = some r →
    ∃ l : List Instant, l.Sublist (denials rules q.decided device) ∧ l.length = r.count ∧
      ∀ s ∈ l, r.windowStarted ≤ s
  paused : ∀ device r u, q.rejects device = some r → r.frozenUntil = some u →
    maxPairingRejects ≤ r.count ∧
      ∃ t, u = t + rejectFreezeMs ∧ Five rules q.decided device t

omit [DecidableEq κ] in
lemma Five.past (h : ∀ d ∈ q.decided, d.time ≤ q.now) {device : String} {t : Instant}
    (hfive : Five rules q.decided device t) : t ≤ q.now := by
  obtain ⟨before, d, hpre, -, -, rfl, -⟩ := hfive
  exact h d (Trace.mem_of_snoc hpre)

omit [DecidableEq κ] in
/-- The record of a denied device. -/
lemma Queue.Recorded.denied (h : q.Recorded rules) (device : String) :
    let r := Queue.denied (q.rejects device) q.now
    r.windowStarted ≤ q.now ∧
      (∃ l : List Instant, l.Sublist (denials rules q.decided device ++ [q.now]) ∧
        l.length = r.count ∧ ∀ s ∈ l, r.windowStarted ≤ s) ∧
      ∀ u, r.frozenUntil = some u → maxPairingRejects ≤ r.count ∧ u = q.now + rejectFreezeMs ∧
        Nears rules q.decided device q.now := by
  by_cases hruns : ∃ r, q.rejects device = some r ∧ r.Runs q.now
  · obtain ⟨r, hr, hruns⟩ := hruns
    obtain ⟨l, hsub, hlength, hstarted⟩ := h.counted device r hr
    have hle := h.started device r hr
    rw [hr, denied_runs hruns]
    refine ⟨hle, ⟨l ++ [q.now], hsub.append (List.Sublist.refl _), by simp [hlength], ?_⟩, ?_⟩
    · intro s hs
      rcases List.mem_append.mp hs with hs | hs
      · exact hstarted s hs
      · rw [List.mem_singleton.mp hs]
        exact hle
    · intro u hu
      by_cases hfive : maxPairingRejects ≤ r.count + 1
      · rw [if_pos hfive] at hu
        refine ⟨hfive, (Option.some.inj hu).symm, l.take 4, ?_, fun s hs => ?_, ?_⟩
        · have : maxPairingRejects = 5 := rfl
          rw [List.length_take]
          omega
        · have hs := hstarted s (List.mem_of_mem_take hs)
          exact lt_of_lt_of_le hruns (Nat.add_le_add_right hs _)
        · exact (List.take_sublist 4 l).trans hsub
      · rw [if_neg hfive] at hu
        have hcount := (h.paused device r u hr hu).1
        omega
  · rw [denied_starts fun r hr hruns' => hruns ⟨r, hr, hruns'⟩]
    refine ⟨le_rfl, ⟨[q.now], List.sublist_append_right _ _, rfl, ?_⟩, fun u hu => by cases hu⟩
    intro s hs
    rw [List.mem_singleton.mp hs]

omit [DecidableEq κ] in
lemma Five.snoc {log : List (Decision κ)} {device : String} {t : Instant} (d : Decision κ)
    (h : Five rules log device t) : Five rules (log ++ [d]) device t :=
  five_snoc.mpr (Or.inl h)

omit [DecidableEq κ] in
lemma Queue.janitor_some {device : String} {r : RejectRecord} :
    q.janitor device = some r ↔ q.rejects device = some r ∧
      (r.frozen q.now = true ∨ q.now - r.windowStarted < rejectWindowMs) := by
  unfold Queue.janitor
  rw [Option.filter_eq_some_iff]
  simp

omit [DecidableEq κ] in
/-- The records behind a step that applies no decision were there before. -/
lemma Queue.swept {q' : Queue κ}
    (h : q'.rejects = q.rejects ∨ q'.rejects = q.janitor ∧ q'.now = q.now) {device : String}
    {r : RejectRecord} (hr : q'.rejects device = some r) : q.rejects device = some r := by
  rcases h with h | ⟨h, -⟩
  · rwa [h] at hr
  · rw [h] at hr
    exact (Queue.janitor_some.mp hr).1

lemma Queue.Recorded.step (h : q.Recorded rules) {op : Op κ} {q' : Queue κ}
    (hmoves : Queue.Moves rules q q' op) : q'.Recorded rules := by
  cases hmoves with
  | idle huntaken hnow hdecided hrejects =>
    refine ⟨fun d hd => ?_, fun device r hr => ?_, fun device r hr => ?_,
      fun device r u hr hu => ?_⟩
    · rw [hdecided] at hd
      exact (h.past d hd).trans hnow
    · exact (h.started device r (Queue.swept hrejects hr)).trans hnow
    · rw [hdecided]
      exact h.counted device r (Queue.swept hrejects hr)
    · rw [hdecided]
      exact h.paused device r u (Queue.swept hrejects hr) hu
  | @applied key approved t htaken hnow hrejects hdecided =>
    have hother : ∀ device, device ≠ rules.device key → q'.rejects device = q.rejects device := by
      intro device hne
      rw [hrejects, Queue.account, Function.update_of_ne hne]
    have hsame : ∀ device, device ≠ rules.device key →
        denials rules q'.decided device = denials rules q.decided device := by
      intro device hne
      rw [hdecided, denials_snoc, if_neg (Ne.symm hne)]
    have hnone : approved = true → q'.rejects (rules.device key) = none := by
      rintro rfl
      rw [hrejects, Queue.account, Function.update_self, if_pos rfl]
    have hdenied : approved = false →
        q'.rejects (rules.device key) = some (Queue.denied (q.rejects (rules.device key)) q.now) ∧
        denials rules q'.decided (rules.device key) =
          denials rules q.decided (rules.device key) ++ [q.now] := by
      rintro rfl
      refine ⟨by rw [hrejects, Queue.account, Function.update_self]; rfl, ?_⟩
      rw [hdecided, denials_snoc, if_pos rfl]
      rfl
    obtain ⟨hstarted, hcounted, hpaused⟩ := h.denied (rules.device key)
    refine ⟨fun d hd => ?_, fun device r hr => ?_, fun device r hr => ?_,
      fun device r u hr hu => ?_⟩
    · rw [hdecided] at hd
      rw [hnow]
      rcases List.mem_append.mp hd with hd | hd
      · exact h.past d hd
      · rw [List.mem_singleton.mp hd]
    all_goals
      by_cases hdevice : device = rules.device key
      · subst hdevice
        cases approved with
        | true => cases (hnone rfl).symm.trans hr
        | false =>
          obtain ⟨hrecord, hdenials⟩ := hdenied rfl
          obtain rfl := Option.some.inj (hrecord.symm.trans hr)
          first
          | exact hnow ▸ hstarted
          | exact hdenials ▸ hcounted
          | obtain ⟨hcount, hu, hnears⟩ := hpaused u hu
            refine ⟨hcount, q.now, hu, ?_⟩
            rw [hdecided]
            exact five_snoc.mpr (Or.inr ⟨rfl, rfl, rfl, hnears⟩)
      · rw [hother device hdevice] at hr
        first
        | exact hnow ▸ h.started device r hr
        | exact hsame device hdevice ▸ h.counted device r hr
        | obtain ⟨hcount, t', hu', hfive⟩ := h.paused device r u hr hu
          exact ⟨hcount, t', hu', hdecided ▸ hfive.snoc _⟩

/-! ### The pause -/

/-- `frozen_until` of the device's record. -/
def Queue.frozenUntil (q : Queue κ) (device : String) : Option Instant :=
  (q.rejects device).bind (·.frozenUntil)

/-- Whatever is listed, a request of the device is refused. -/
def Paused (rules : Rules κ) (q : Queue κ) (device : String) : Prop :=
  ∀ pending key, rules.device key = device →
    ∃ reason, (Queue.register rules { q with pending } key).2 = .refused reason

/-- After five denials the device is paused for a minute. -/
def Pauses (rules : Rules κ) (q : Queue κ) : Prop :=
  ∀ device t, Five rules q.decided device t → q.now < t + rejectFreezeMs → Paused rules q device

/-- A denial neither ends nor shortens a pause of its device. -/
def Lasts (rules : Rules κ) (q : Queue κ) (op : Op κ) : Prop :=
  ∀ key u, op = .decide key false → q.frozenUntil (rules.device key) = some u → q.now < u →
    ∃ u', (q.step rules op).1.frozenUntil (rules.device key) = some u' ∧ u ≤ u'

/-- The count is one short of a pause at least, in a window that runs. -/
def Queue.Counting (q : Queue κ) (device : String) : Prop :=
  ∃ r, q.rejects device = some r ∧ maxPairingRejects ≤ r.count + 1 ∧ r.Runs q.now

/-- An approval is applied in a pause; or a denial, in a pause or as the fifth of five, and the
count is short or its window has run out. -/
def Forgets (rules : Rules κ) (q : Queue κ) : Op κ → Prop
  | .decide key true => q.Taken key ∧ q.frozen (rules.device key) = true
  | .decide key false => q.Taken key ∧
      (q.frozen (rules.device key) = true ∨ Nears rules q.decided (rules.device key) q.now) ∧
      ¬q.Counting (rules.device key)
  | _ => False

omit [DecidableEq κ] in
lemma Queue.frozen_iff {device : String} :
    q.frozen device = true ↔ ∃ u, q.frozenUntil device = some u ∧ q.now < u := by
  unfold Queue.frozen Queue.frozenUntil RejectRecord.frozen
  rcases q.rejects device with _ | r
  · simp
  · rcases h : r.frozenUntil with _ | u <;> simp [h]

lemma paused_of_frozen {device : String} (h : q.frozen device = true) : Paused rules q device := by
  rintro pending key rfl
  unfold Queue.register
  split_ifs with hfull hlisted hfrozen
  · exact ⟨_, rfl⟩
  · exact ⟨_, rfl⟩
  · exact ⟨_, rfl⟩
  · exact absurd h hfrozen

lemma frozen_of_paused {key : κ} (h : Paused rules q (rules.device key)) :
    q.frozen (rules.device key) = true := by
  obtain ⟨reason, hrefused⟩ := h [] key rfl
  by_contra hfrozen
  have hcapacity : ¬rules.capacity ≤ 0 := rules.capacity_pos.not_ge
  unfold Queue.register at hrefused
  split_ifs at hrefused with hfull hlisted hpaused
  · exact hcapacity hfull
  · cases hlisted
  · exact hfrozen hpaused

/-- Five denials pause the device, and its record says so. -/
def Held (rules : Rules κ) (q : Queue κ) : Prop :=
  ∀ device t, Five rules q.decided device t → q.now < t + rejectFreezeMs →
    ∃ u, q.frozenUntil device = some u ∧ t + rejectFreezeMs ≤ u

omit [DecidableEq κ] in
lemma Held.frozen (h : Held rules q) {device : String} {t : Instant}
    (hfive : Five rules q.decided device t) (ht : q.now < t + rejectFreezeMs) :
    q.frozen device = true := by
  obtain ⟨u, hu, hle⟩ := h device t hfive ht
  exact Queue.frozen_iff.mpr ⟨u, hu, lt_of_lt_of_le ht hle⟩

omit [DecidableEq κ] in
/-- A pause ends at most a minute from now. -/
lemma Queue.Recorded.paused_le (h : q.Recorded rules) {device : String} {u : Instant}
    (hu : q.frozenUntil device = some u) : u ≤ q.now + rejectFreezeMs := by
  obtain ⟨r, hr, hu⟩ := Option.bind_eq_some_iff.mp hu
  obtain ⟨-, t, rfl, hfive⟩ := h.paused device r u hr hu
  exact Nat.add_le_add_right (hfive.past h.past) _

omit [DecidableEq κ] in
lemma Queue.Counting.denied {device : String} (h : q.Counting device) :
    (Queue.denied (q.rejects device) q.now).frozenUntil = some (q.now + rejectFreezeMs) := by
  obtain ⟨r, hr, hcount, hruns⟩ := h
  rw [hr, denied_runs hruns, if_pos hcount]

omit [DecidableEq κ] in
lemma Queue.frozenUntil_swept {q' : Queue κ}
    (h : q'.rejects = q.rejects ∨ q'.rejects = q.janitor ∧ q'.now = q.now) {device : String}
    {u : Instant} (hu : q.frozenUntil device = some u) (hlt : q.now < u) :
    q'.frozenUntil device = some u := by
  rcases h with h | ⟨h, -⟩
  · rwa [Queue.frozenUntil, h]
  · obtain ⟨r, hr, hr'⟩ := Option.bind_eq_some_iff.mp hu
    have hfrozen : r.frozen q.now = true := by
      rw [RejectRecord.frozen, hr']
      exact decide_eq_true hlt
    rw [Queue.frozenUntil, h, Queue.janitor_some.mpr ⟨hr, Or.inl hfrozen⟩]
    exact hr'

omit [DecidableEq κ] in
lemma Queue.frozenUntil_denied {q' : Queue κ} {device : String}
    (h : q'.rejects = q.account device false) :
    q'.frozenUntil device = (Queue.denied (q.rejects device) q.now).frozenUntil := by
  rw [Queue.frozenUntil, h, Queue.account, Function.update_self]
  rfl

/-! ### Steps -/

lemma Held.step (hq : q.Recorded rules) (h : Held rules q) {op : Op κ} {q' : Queue κ}
    (hmoves : Queue.Moves rules q q' op) (hop : ¬Forgets rules q op) : Held rules q' := by
  intro device t hfive ht
  cases hmoves with
  | idle huntaken hnow hdecided hrejects =>
    rw [hdecided] at hfive
    have ht' := lt_of_le_of_lt hnow ht
    obtain ⟨u, hu, hle⟩ := h device t hfive ht'
    exact ⟨u, Queue.frozenUntil_swept hrejects hu (lt_of_lt_of_le ht' hle), hle⟩
  | @applied key approved ticket htaken hnow hrejects hdecided =>
    rw [hnow] at ht
    rw [hdecided, five_snoc] at hfive
    by_cases hdevice : device = rules.device key
    · subst hdevice
      cases approved with
      | true =>
        have hold : Five rules q.decided (rules.device key) t := by
          rcases hfive with hfive | ⟨-, hno, -⟩
          · exact hfive
          · cases hno
        exact absurd ⟨htaken, h.frozen hold ht⟩ hop
      | false =>
        have hcounting : q.Counting (rules.device key) := by
          by_contra hnot
          rcases hfive with hold | ⟨-, -, rfl, hnears⟩
          · exact hop ⟨htaken, Or.inl (h.frozen hold ht), hnot⟩
          · exact hop ⟨htaken, Or.inr hnears, hnot⟩
        have hle : t ≤ q.now := by
          rcases hfive with hold | ⟨-, -, rfl, -⟩
          · exact hold.past hq.past
          · exact le_rfl
        refine ⟨q.now + rejectFreezeMs, ?_, Nat.add_le_add_right hle _⟩
        rw [Queue.frozenUntil_denied hrejects, hcounting.denied]
    · have hold : Five rules q.decided device t := by
        rcases hfive with hfive | ⟨heq, -⟩
        · exact hfive
        · exact absurd heq.symm hdevice
      obtain ⟨u, hu, hle⟩ := h device t hold ht
      refine ⟨u, ?_, hle⟩
      rwa [Queue.frozenUntil, hrejects, Queue.account, Function.update_of_ne hdevice]

lemma lasts_of_not_forgets (hq : q.Recorded rules) {op : Op κ} (hop : ¬Forgets rules q op) :
    Lasts rules q op := by
  rintro key u rfl hu hlt
  generalize hq' : (q.step rules (.decide key false)).1 = q'
  have hmoves : Queue.Moves rules q q' (.decide key false) := hq' ▸ Queue.moves_step _
  cases hmoves with
  | idle huntaken hnow hdecided hrejects =>
    exact ⟨u, Queue.frozenUntil_swept hrejects hu hlt, le_rfl⟩
  | applied htaken hnow hrejects hdecided =>
    have hcounting : q.Counting (rules.device key) := by
      by_contra hnot
      exact hop ⟨htaken, Or.inl (Queue.frozen_iff.mpr ⟨u, hu, hlt⟩), hnot⟩
    refine ⟨q.now + rejectFreezeMs, ?_, hq.paused_le hu⟩
    rw [Queue.frozenUntil_denied hrejects, hcounting.denied]

/-- A decision that reaches its registration is accounted. -/
lemma Queue.Taken.applied (rules : Rules κ) {key : κ} (h : q.Taken key) (approved : Bool) :
    let q' := (q.step rules (.decide key approved)).1
    q'.now = q.now ∧ q'.rejects = q.account (rules.device key) approved ∧
      ∃ t, q'.decided = q.decided ++ [⟨q.now, t, key, approved⟩] := by
  generalize hq' : (q.step rules (.decide key approved)).1 = q'
  have hmoves : Queue.Moves rules q q' (.decide key approved) := hq' ▸ Queue.moves_step _
  cases hmoves with
  | idle huntaken => exact absurd h (huntaken key approved rfl)
  | applied htaken hnow hrejects hdecided => exact ⟨hnow, hrejects, _, hdecided⟩

omit [DecidableEq κ] in
/-- Past the count or its window, a denial leaves no pause. -/
lemma Queue.Recorded.not_counting (hq : q.Recorded rules) {device : String}
    (h : ¬q.Counting device) : (Queue.denied (q.rejects device) q.now).frozenUntil = none := by
  by_cases hruns : ∃ r, q.rejects device = some r ∧ r.Runs q.now
  · obtain ⟨r, hr, hruns⟩ := hruns
    have hshort : ¬maxPairingRejects ≤ r.count + 1 := fun hcount => h ⟨r, hr, hcount, hruns⟩
    rw [hr, denied_runs hruns, if_neg hshort]
    rcases hu : r.frozenUntil with _ | u
    · rfl
    · have hcount := (hq.paused device r u hr hu).1
      omega
  · rw [denied_starts fun r hr hruns' => hruns ⟨r, hr, hruns'⟩]

/-- A denial that forgets ends a pause, or a pause that is due does not start; an approval lets
in what is to be refused. -/
lemma Forgets.breaks (hq : q.Recorded rules) {op : Op κ} (h : Forgets rules q op)
    (hlasts : Lasts rules q op) : ¬Pauses rules (q.step rules op).1 := by
  intro hpauses
  rcases op with _ | _ | ⟨key, _ | _⟩ | _ | _ | _ | _ | _
  case decide.false =>
    obtain ⟨htaken, hdue, hnot⟩ := h
    obtain ⟨hnow, hrejects, t, hdecided⟩ := htaken.applied rules false
    have hnone := (Queue.frozenUntil_denied hrejects).trans (hq.not_counting hnot)
    rcases hdue with hfrozen | hnears
    · obtain ⟨u, hu, hlt⟩ := Queue.frozen_iff.mp hfrozen
      obtain ⟨u', hu', -⟩ := hlasts key u rfl hu hlt
      cases hnone.symm.trans hu'
    · have hfive : Five rules (q.step rules (.decide key false)).1.decided (rules.device key)
          q.now := by
        rw [hdecided]
        exact five_snoc.mpr (Or.inr ⟨rfl, rfl, rfl, hnears⟩)
      have hlt : (q.step rules (.decide key false)).1.now < q.now + rejectFreezeMs := by
        rw [hnow]
        exact Nat.lt_add_of_pos_right (by decide)
      have hfrozen := frozen_of_paused (hpauses _ _ hfive hlt)
      obtain ⟨u, hu, -⟩ := Queue.frozen_iff.mp hfrozen
      cases hnone.symm.trans hu
  case decide.true =>
    obtain ⟨htaken, hfrozen⟩ := h
    obtain ⟨hnow, hrejects, t, hdecided⟩ := htaken.applied rules true
    obtain ⟨u, hu, hlt⟩ := Queue.frozen_iff.mp hfrozen
    obtain ⟨r, hr, hu⟩ := Option.bind_eq_some_iff.mp hu
    obtain ⟨-, t', rfl, hfive⟩ := hq.paused _ r u hr hu
    have hfive' : Five rules (q.step rules (.decide key true)).1.decided (rules.device key) t' := by
      rw [hdecided]
      exact hfive.snoc _
    have hfrozen' := frozen_of_paused (hpauses _ _ hfive' (hnow ▸ hlt))
    obtain ⟨u', hu', -⟩ := Queue.frozen_iff.mp hfrozen'
    rw [Queue.frozenUntil, hrejects, Queue.account, Function.update_self] at hu'
    cases hu'
  all_goals exact h

/-! ### Runs -/

lemma recorded_after (rules : Rules κ) (ops : List (Op κ)) : (after rules ops).Recorded rules := by
  refine Trace.always (I := fun _ q => Queue.Recorded rules q) ?_
    fun m op hm => hm.step (Queue.moves_step op)
  refine ⟨?_, ?_, ?_, ?_⟩ <;> simp [Queue.empty]

/-- **Five denials pause a device.** Along a run every request of a device is refused in the
minute after the fifth of five denials, and no denial ends or shortens a pause, exactly if no
approval is applied in a pause and every denial, in a pause or as the fifth of five, finds the
count in a window that runs. -/
theorem freezes_iff (rules : Rules κ) (ops : List (Op κ)) :
    ((∀ before, before <+: ops → Pauses rules (after rules before)) ∧
      Trace.Each (fun before op => Lasts rules (after rules before) op) ops) ↔
      Trace.Each (fun before op => ¬Forgets rules (after rules before) op) ops := by
  constructor
  · rintro ⟨hpauses, hlasts⟩ before op hpre hforgets
    refine hforgets.breaks (recorded_after rules before) (hlasts before op hpre) ?_
    have hafter := hpauses (before ++ [op]) hpre
    rwa [after, Trace.final_snoc] at hafter
  · intro hops
    refine ⟨fun before hpre => ?_, fun before op hpre =>
      lasts_of_not_forgets (recorded_after rules before) (hops before op hpre)⟩
    have hheld : Held rules (after rules before) := by
      refine Trace.invariant (I := fun _ q => Held rules q) ?_ (fun m op hm hop => ?_)
        (hops.of_prefix hpre)
      · rintro device t ⟨before', d, hnil, -⟩
        simpa [Queue.empty] using List.prefix_nil.mp hnil
      · exact hm.step (recorded_after rules m) (Queue.moves_step op) hop
    exact fun device t hfive ht => paused_of_frozen (hheld.frozen hfive ht)

/-- Denials of a device at these times, in seconds after another. -/
def deniedAfter (seconds : List ℕ) : List (Op String) :=
  seconds.flatMap fun s => [.register "a", .pass (s * 1000), .decide "a" false]

/-- Six epochs of a device are queued; five are denied, the last two seconds before the window of
the first runs out, and the sixth two seconds later. -/
def deniedInPause : List (Op (String × UInt64)) :=
  [.register ("a", 1), .register ("a", 2), .register ("a", 3), .register ("a", 4),
    .register ("a", 5), .register ("a", 6), .decide ("a", 1) false, .pass 598000,
    .decide ("a", 2) false, .decide ("a", 3) false, .decide ("a", 4) false,
    .decide ("a", 5) false, .pass 2000]

theorem denial_ends_the_pause :
    (Five pairingApprovals (after pairingApprovals (deniedAfter [0, 590, 1, 9, 1, 1])).decided "a"
        602000 ∧
      ((after pairingApprovals (deniedAfter [0, 590, 1, 9, 1, 1])).register pairingApprovals "a").2
        = .registered 6) ∧
      (after linkApprovals deniedInPause).frozen "a" = true ∧
      (after linkApprovals (deniedInPause ++ [.decide ("a", 6) false])).frozen "a" = false := by
  refine ⟨⟨⟨(after pairingApprovals (deniedAfter [0, 590, 1, 9, 1])).decided,
    ⟨602000, 5, "a", false⟩, ?_, rfl, rfl, rfl, [590000, 591000, 600000, 601000], rfl, ?_, ?_⟩, ?_⟩,
    ?_, ?_⟩
  all_goals decide

end TheKvm.Approvals

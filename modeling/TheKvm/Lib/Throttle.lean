import Mathlib.Algebra.Order.Group.Nat
import Mathlib.Data.List.Chain
import TheKvm.Lib.Trace

/-!
Throttles, which let some of the calls past.

A throttle that every call stamps lets a call past if the stamp is old enough. The calls that it
holds back stamp it too, so calls that keep coming keep each other out.
-/

namespace TheKvm.Throttle

section

variable {σ α : Type*} (time : α → ℕ) (step : σ → α → σ × Bool) (gap : ℕ) (s : σ)

/-- The times of the calls that got past. -/
def passed : σ → List α → List ℕ
  | _, [] => []
  | s, a :: l => (if (step s a).2 then [time a] else []) ++ passed (step s a).1 l

/-- Two calls that got past are the gap apart. -/
def NeverFloods (l : List α) : Prop := (passed time step s l).Pairwise fun t u => t + gap ≤ u

/-- A call gets past if the last one that did is the gap behind. -/
def NeverStarves (l : List α) : Prop :=
  Trace.Each (fun m a => ∀ t ∈ (passed time step s m).getLast?, t + gap ≤ time a →
    (step (Trace.final step s m) a).2 = true) l

variable {time step} {s} {l : List α} {a : α}

lemma passed_append (m : List α) :
    passed time step s (l ++ m) =
      passed time step s l ++ passed time step (Trace.final step s l) m := by
  induction l generalizing s with
  | nil => rfl
  | cons a l ih =>
    rw [List.cons_append, passed, ih, passed, List.append_assoc, Trace.final_cons]

lemma passed_snoc : passed time step s (l ++ [a]) =
    passed time step s l ++ if (step (Trace.final step s l) a).2 then [time a] else [] := by
  rw [passed_append, passed, passed, List.append_nil]

lemma passed_subset : passed time step s l ⊆ l.map time := by
  induction l generalizing s with
  | nil => exact List.Subset.refl _
  | cons a l ih =>
    refine List.append_subset.mpr ⟨?_, List.Subset.trans ih (List.subset_cons_self _ _)⟩
    split_ifs
    · exact List.cons_subset.mpr ⟨List.mem_cons_self, List.nil_subset _⟩
    · exact List.nil_subset _

end

/-! ### Stamped by every call -/

/-- A call, which gets past if the stamp is the gap old. -/
def stamped (gap stamp now : ℕ) : ℕ × Bool := (now, decide (stamp + gap ≤ now))

/-- One call less than the gap behind another. -/
def Close (gap t u : ℕ) : Prop := u < t + gap

instance (gap t u : ℕ) : Decidable (Close gap t u) := inferInstanceAs (Decidable (_ < _))

/-- A series of calls, each less than the gap behind the one before, lasts less than the gap. -/
def Pauses (gap : ℕ) (l : List ℕ) : Prop :=
  ∀ t r u, t :: (r ++ [u]) <:+: l → (t :: (r ++ [u])).IsChain (Close gap) → u < t + gap

variable {gap stamp t u : ℕ} {l m r : List ℕ}

lemma final_stamped_snoc : Trace.final (stamped gap) stamp (l ++ [t]) = t := by
  rw [Trace.final_snoc, stamped]

lemma stamped_past : (stamped gap stamp t).2 = true ↔ stamp + gap ≤ t := decide_eq_true_iff

/-- The stamp is as late as any call. -/
lemma le_final_stamped (hl : l.Pairwise (· ≤ ·)) (ht : t ∈ l) :
    t ≤ Trace.final (stamped gap) stamp l := by
  induction l using List.reverseRecOn with
  | nil => cases ht
  | append_singleton l u _ =>
    rw [final_stamped_snoc]
    rcases List.mem_append.mp ht with ht | ht
    · exact (List.pairwise_append.mp hl).2.2 t ht u List.mem_cons_self
    · exact (List.mem_singleton.mp ht).le

/-- Of the calls that got past no two come within the gap. -/
theorem neverFloods_stamped (hl : l.Pairwise (· ≤ ·)) :
    NeverFloods id (stamped gap) gap stamp l := by
  induction l using List.reverseRecOn with
  | nil => exact List.Pairwise.nil
  | append_singleton l u ih =>
    have hbefore := ih (List.pairwise_append.mp hl).1
    rw [NeverFloods, passed_snoc]
    split_ifs with hpast
    · refine List.pairwise_append.mpr ⟨hbefore, List.pairwise_singleton _ _, ?_⟩
      intro t ht v hv
      have hmem : t ∈ l := by simpa using passed_subset ht
      have hstamp : t ≤ Trace.final (stamped gap) stamp l :=
        le_final_stamped (List.pairwise_append.mp hl).1 hmem
      obtain rfl := List.mem_singleton.mp hv
      exact (Nat.add_le_add_right hstamp gap).trans (stamped_past.mp hpast)
    · rwa [List.append_nil]

/-- Calls that keep coming keep each other out. -/
lemma passed_series (h : (t :: r).IsChain (Close gap)) : passed id (stamped gap) t r = [] := by
  induction r generalizing t with
  | nil => rfl
  | cons u r ih =>
    obtain ⟨hclose, hrest⟩ := List.isChain_cons_cons.mp h
    rw [passed, if_neg, List.nil_append]
    · exact ih hrest
    · rw [stamped_past, Nat.not_le]
      exact hclose

/-- A call goes on with a series if it does not get past. -/
lemma series_snoc (stamp : ℕ) (m : List ℕ) : (t :: (r ++ [u])).IsChain (Close gap) ↔
    (t :: r).IsChain (Close gap) ∧
      ¬(stamped gap (Trace.final (stamped gap) stamp (m ++ t :: r)) u).2 = true := by
  obtain ⟨k, v, hk⟩ := (List.eq_nil_or_concat (t :: r)).resolve_left (List.cons_ne_nil t r)
  rw [← List.cons_append, hk, List.concat_eq_append, ← List.append_assoc, final_stamped_snoc,
    stamped_past, Nat.not_le, List.isChain_append]
  simp [Close]

/-- Behind the last call that got past there is only a series. -/
lemma series_of_passed (h : t ∈ (passed id (stamped gap) stamp l).getLast?) :
    ∃ m r, l = m ++ t :: r ∧ (t :: r).IsChain (Close gap) := by
  induction l using List.reverseRecOn with
  | nil => cases h
  | append_singleton l u ih =>
    rw [passed_snoc] at h
    split_ifs at h with hpast
    · rw [List.getLast?_append_of_ne_nil _ (List.cons_ne_nil _ _)] at h
      obtain rfl : u = t := by simpa using h
      exact ⟨l, [], rfl, List.isChain_singleton _⟩
    · rw [List.append_nil] at h
      obtain ⟨m, r, rfl, hseries⟩ := ih h
      exact ⟨m, r ++ [u], by simp, (series_snoc stamp _).mpr ⟨hseries, hpast⟩⟩

/-- A first call that comes late enough gets past. -/
lemma passed_ne_nil (hl : l ≠ []) (hfirst : ∀ t ∈ l.head?, stamp + gap ≤ t) :
    passed id (stamped gap) stamp l ≠ [] := by
  obtain ⟨t, l, rfl⟩ := List.exists_cons_of_ne_nil hl
  rw [passed, if_pos (stamped_past.mpr (hfirst t rfl))]
  exact List.cons_ne_nil _ _

/-- **The throttle**. Stamped by every call it starves no call exactly if no series of calls goes
on for the gap. -/
theorem neverStarves_stamped_iff (hl : l.Pairwise (· ≤ ·))
    (hfirst : ∀ t ∈ l.head?, stamp + gap ≤ t) :
    NeverStarves id (stamped gap) gap stamp l ↔ Pauses gap l := by
  constructor
  · rintro h t r u ⟨k, rest, rfl⟩ hseries
    obtain ⟨hseries, hblocked⟩ := (series_snoc stamp k).mp hseries
    by_contra hlong
    have hm : k ++ t :: r ++ [u] <+: k ++ t :: (r ++ [u]) ++ rest := ⟨rest, by simp⟩
    have hsplit : k ++ t :: r = k ++ [t] ++ r := by simp
    -- the last call that got past is no later than the first of the series
    have hpassed : passed id (stamped gap) stamp (k ++ t :: r) =
        passed id (stamped gap) stamp (k ++ [t]) := by
      rw [hsplit, passed_append, final_stamped_snoc, passed_series hseries, List.append_nil]
    have hne : passed id (stamped gap) stamp (k ++ [t]) ≠ [] := by
      refine passed_ne_nil (by simp) fun v hv => hfirst v ?_
      cases k <;> simpa using hv
    obtain ⟨v, hlast⟩ := Option.ne_none_iff_exists'.mp (mt List.getLast?_eq_none_iff.mp hne)
    have hle : v ≤ t := by
      have hmem := passed_subset (List.mem_of_getLast? hlast)
      rw [List.map_id] at hmem
      rcases List.mem_append.mp hmem with hmem | hmem
      · have hbefore := (List.pairwise_append.mp hl).1
        exact (List.pairwise_append.mp hbefore).2.2 _ hmem t List.mem_cons_self
      · exact (List.mem_singleton.mp hmem).le
    rw [← hpassed] at hlast
    exact hblocked (h _ u hm _ hlast
      ((Nat.add_le_add_right hle gap).trans (Nat.not_lt.mp hlong)))
  · intro h m u hm t ht hlate
    obtain ⟨k, r, rfl, hseries⟩ := series_of_passed ht
    by_contra hblocked
    have hinfix : t :: (r ++ [u]) <:+: l := by
      refine List.IsInfix.trans ⟨k, [], ?_⟩ hm.isInfix
      simp
    have hshort := h t r u hinfix ((series_snoc stamp _).mpr ⟨hseries, hblocked⟩)
    exact absurd hlate (Nat.not_le.mpr hshort)

/-! ### Machines that keep a stamp -/

section

variable {σ α : Type*} {time : α → ℕ} {step : σ → α → σ × Bool} {f : σ → ℕ}
variable (h : ∀ s a, stamped gap (f s) (time a) = (f (step s a).1, (step s a).2)) (s : σ)
  (k : List α)

include h

lemma final_map : Trace.final (stamped gap) (f s) (k.map time) = f (Trace.final step s k) := by
  induction k generalizing s with
  | nil => rfl
  | cons a k ih => rw [List.map_cons, Trace.final_cons, h, ih, Trace.final_cons]

lemma passed_map : passed id (stamped gap) (f s) (k.map time) = passed time step s k := by
  induction k generalizing s with
  | nil => rfl
  | cons a k ih => rw [List.map_cons, passed, h, ih, passed, id_eq]

lemma neverFloods_map : NeverFloods id (stamped gap) gap (f s) (k.map time) ↔
    NeverFloods time step gap s k := by
  rw [NeverFloods, NeverFloods, passed_map h]

lemma neverStarves_map : NeverStarves id (stamped gap) gap (f s) (k.map time) ↔
    NeverStarves time step gap s k := by
  rw [NeverStarves, NeverStarves, Trace.each_map]
  simp only [passed_map h, final_map h, h, id_eq]

end

end TheKvm.Throttle

import Mathlib.Data.List.Infix
import Mathlib.Tactic.Common

/-!
Runs of a machine whose step may stop the program.

A step takes an input and yields the next state and an output, or `none` where the program
it models panics. A run feeds a list of inputs and collects the outputs.
-/

namespace TheKvm.Run

variable {σ α ω : Type*}

/-- The last state of a run and the outputs on the way. -/
def run (step : σ → α → Option (σ × ω)) : σ → List α → Option (σ × List ω)
  | s, [] => some (s, [])
  | s, a :: l => (step s a).bind fun p => (run step p.1 l).map fun q => (q.1, p.2 :: q.2)

variable {step : σ → α → Option (σ × ω)}

@[simp] lemma run_nil (s : σ) : run step s [] = some (s, []) := rfl

lemma run_cons (s : σ) (a : α) (l : List α) :
    run step s (a :: l) =
      (step s a).bind fun p => (run step p.1 l).map fun q => (q.1, p.2 :: q.2) := rfl

lemma run_cons_some {s t : σ} {a : α} {l : List α} {os : List ω} :
    run step s (a :: l) = some (t, os) ↔
      ∃ s' o os', step s a = some (s', o) ∧ run step s' l = some (t, os') ∧ os = o :: os' := by
  rw [run_cons, Option.bind_eq_some_iff]
  constructor
  · rintro ⟨⟨s', o⟩, hs, h⟩
    obtain ⟨⟨t', os'⟩, ht, he⟩ := Option.map_eq_some_iff.mp h
    obtain ⟨rfl, rfl⟩ := Prod.mk.inj he
    exact ⟨s', o, os', hs, ht, rfl⟩
  · rintro ⟨s', o, os', hs, ht, rfl⟩
    exact ⟨(s', o), hs, by rw [ht]; rfl⟩

lemma run_append_some {s t : σ} {l m : List α} {os : List ω} :
    run step s (l ++ m) = some (t, os) ↔
      ∃ s' os₁ os₂, run step s l = some (s', os₁) ∧ run step s' m = some (t, os₂) ∧
        os = os₁ ++ os₂ := by
  induction l generalizing s os with
  | nil => simp
  | cons a l ih =>
    rw [List.cons_append, run_cons_some]
    constructor
    · rintro ⟨s₁, o, os', hs, h, rfl⟩
      obtain ⟨s', os₁, os₂, h₁, h₂, rfl⟩ := ih.mp h
      exact ⟨s', o :: os₁, os₂, run_cons_some.mpr ⟨s₁, o, os₁, hs, h₁, rfl⟩, h₂, rfl⟩
    · rintro ⟨s', os₁, os₂, h₁, h₂, rfl⟩
      obtain ⟨s₁, o, os', hs, h, rfl⟩ := run_cons_some.mp h₁
      exact ⟨s₁, o, os' ++ os₂, hs, ih.mpr ⟨s', os', os₂, h, h₂, rfl⟩, rfl⟩

lemma run_snoc_some {s t : σ} {l : List α} {a : α} {os : List ω} :
    run step s (l ++ [a]) = some (t, os) ↔
      ∃ s' os' o, run step s l = some (s', os') ∧ step s' a = some (t, o) ∧
        os = os' ++ [o] := by
  rw [run_append_some]
  constructor
  · rintro ⟨s', os₁, os₂, h₁, h₂, rfl⟩
    obtain ⟨t', o, os', hs, ht, rfl⟩ := run_cons_some.mp h₂
    obtain ⟨rfl, rfl⟩ := Prod.mk.inj (Option.some.inj ht)
    exact ⟨s', os₁, o, h₁, hs, rfl⟩
  · rintro ⟨s', os', o, h₁, hs, rfl⟩
    exact ⟨s', os', [o], h₁, run_cons_some.mpr ⟨t, o, [], hs, rfl, rfl⟩, rfl⟩

/-! ### Invariants -/

/-- What every step keeps holds at the end of every run. -/
theorem invariant_run {I : σ → Prop}
    (h : ∀ s a s' o, I s → step s a = some (s', o) → I s')
    {s t : σ} {l : List α} {os : List ω} (hs : I s) (hr : run step s l = some (t, os)) :
    I t := by
  induction l generalizing s os with
  | nil =>
    obtain ⟨rfl, -⟩ := Prod.mk.inj (Option.some.inj hr)
    exact hs
  | cons a l ih =>
    obtain ⟨s', o, os', hstep, hrest, -⟩ := run_cons_some.mp hr
    exact ih (h s a s' o hs hstep) hrest

/-- Every step of the run over `l` meets `P`, at the state it is taken in. -/
def Each (step : σ → α → Option (σ × ω)) (P : σ → α → Prop) : σ → List α → Prop
  | _, [] => True
  | s, a :: l => P s a ∧ ∀ s' o, step s a = some (s', o) → Each step P s' l

/-- What each input meets, the steps over them meet. -/
lemma Each.and_mem {P : σ → α → Prop} {Q : α → Prop} {s : σ} {l : List α}
    (h : Each step P s l) (hQ : ∀ a ∈ l, Q a) : Each step (fun s a => P s a ∧ Q a) s l := by
  induction l generalizing s with
  | nil => trivial
  | cons a l ih =>
    exact ⟨⟨h.1, hQ a List.mem_cons_self⟩,
      fun s' o hs => ih (h.2 s' o hs) fun b hb => hQ b (List.mem_cons_of_mem _ hb)⟩

/-- What every step keeps between the inputs so far and the state holds at the end of a run. -/
theorem invariant_history {I : List α → σ → Prop} {P : σ → α → Prop}
    (h : ∀ m s a s' o, I m s → P s a → step s a = some (s', o) → I (m ++ [a]) s')
    {m l : List α} {s t : σ} {os : List ω} (hs : I m s) (hP : Each step P s l)
    (hr : run step s l = some (t, os)) : I (m ++ l) t := by
  induction l generalizing m s os with
  | nil =>
    obtain ⟨rfl, -⟩ := Prod.mk.inj (Option.some.inj hr)
    rwa [List.append_nil]
  | cons a l ih =>
    obtain ⟨s', o, os', hstep, hrest, -⟩ := run_cons_some.mp hr
    have hl := ih (h m s a s' o hs hP.1 hstep) (hP.2 s' o hstep) hrest
    rwa [List.append_assoc] at hl

/-- When no step stops in `I` and a step keeps `I` exactly if it meets `P`, the steps of a run
all meet `P` exactly if the run and all its beginnings end in `I`. -/
theorem each_iff {I : σ → Prop} {P : σ → α → Prop}
    (h : ∀ s a, I s → ∃ s' o, step s a = some (s', o) ∧ (I s' ↔ P s a))
    {s : σ} {l : List α} (hs : I s) :
    Each step P s l ↔ ∀ m, m <+: l → ∃ t os, run step s m = some (t, os) ∧ I t := by
  induction l generalizing s with
  | nil =>
    refine iff_of_true trivial fun m hm => ?_
    rw [List.prefix_nil.mp hm]
    exact ⟨s, [], rfl, hs⟩
  | cons a l ih =>
    obtain ⟨s', o, hstep, hP⟩ := h s a hs
    have hrest : Each step P s (a :: l) ↔ P s a ∧ Each step P s' l :=
      and_congr_right fun _ =>
        ⟨fun he => he s' o hstep, fun he t o' ht => by
          obtain ⟨rfl, rfl⟩ := Prod.mk.inj (Option.some.inj (hstep.symm.trans ht))
          exact he⟩
    rw [hrest]
    constructor
    · rintro ⟨hp, he⟩ m hm
      rcases m with _ | ⟨b, m⟩
      · exact ⟨s, [], rfl, hs⟩
      obtain ⟨rfl, hml⟩ := List.cons_prefix_cons.mp hm
      obtain ⟨t, os, hr, ht⟩ := (ih (hP.mpr hp)).mp he m hml
      exact ⟨t, o :: os, run_cons_some.mpr ⟨s', o, os, hstep, hr, rfl⟩, ht⟩
    · intro hall
      have tail : ∀ m, m <+: l → ∃ t os, run step s' m = some (t, os) ∧ I t := by
        intro m hm
        obtain ⟨t, os, hr, ht⟩ := hall (a :: m) (List.cons_prefix_cons.mpr ⟨rfl, hm⟩)
        obtain ⟨s₁, o₁, os₁, h₁, hr₁, rfl⟩ := run_cons_some.mp hr
        obtain ⟨rfl, rfl⟩ := Prod.mk.inj (Option.some.inj (hstep.symm.trans h₁))
        exact ⟨t, os₁, hr₁, ht⟩
      have hs' : I s' := by
        obtain ⟨t, os, hr, ht⟩ := tail [] (List.nil_prefix)
        obtain ⟨rfl, -⟩ := Prod.mk.inj (Option.some.inj hr)
        exact ht
      exact ⟨hP.mp hs', (ih hs').mpr tail⟩

/-- Some state of a run meets `P`. -/
def Visits (step : σ → α → Option (σ × ω)) (P : σ → Prop) (s : σ) (l : List α) : Prop :=
  ∃ m k t os, l = m ++ k ∧ run step s m = some (t, os) ∧ P t

/-- The rest of a run from a state on its way. -/
lemma Visits.rest {P : σ → Prop} {s t : σ} {l : List α} {os : List ω} (h : Visits step P s l)
    (hr : run step s l = some (t, os)) :
    ∃ m k s' os₁ os₂, l = m ++ k ∧ run step s m = some (s', os₁) ∧ P s' ∧
      run step s' k = some (t, os₂) := by
  obtain ⟨m, k, s', os₁, rfl, hm, hs⟩ := h
  obtain ⟨s'', os₁', os₂, hm', hk, -⟩ := run_append_some.mp hr
  obtain ⟨rfl, -⟩ := Prod.mk.inj (Option.some.inj (hm.symm.trans hm'))
  exact ⟨m, k, s', os₁, os₂, rfl, hm, hs, hk⟩

lemma visits_start {P : σ → Prop} {s : σ} (h : P s) (l : List α) : Visits step P s l :=
  ⟨[], l, s, [], rfl, rfl, h⟩

/-- The step that gave an output. -/
lemma exists_step_of_mem {s t : σ} {l : List α} {os : List ω} (h : run step s l = some (t, os))
    {o : ω} (ho : o ∈ os) :
    ∃ m a k s₁ os₁ s₂, l = m ++ a :: k ∧ run step s m = some (s₁, os₁) ∧
      step s₁ a = some (s₂, o) := by
  induction l generalizing s os with
  | nil =>
    obtain ⟨-, rfl⟩ := Prod.mk.inj (Option.some.inj h)
    cases ho
  | cons a l ih =>
    obtain ⟨s', o', os', hs, hr, rfl⟩ := run_cons_some.mp h
    rcases List.mem_cons.mp ho with rfl | ho
    · exact ⟨[], a, l, s, [], s', rfl, rfl, hs⟩
    · obtain ⟨m, b, k, s₁, os₁, s₂, rfl, hm, hb⟩ := ih hr ho
      exact ⟨a :: m, b, k, s₁, o' :: os₁, s₂, rfl, run_cons_some.mpr ⟨s', o', os₁, hs, hm, rfl⟩, hb⟩

/-- What every step keeps until a step meets `Q` holds at the end of a run, unless some step
of it met `Q`. -/
theorem run_until {I : σ → Prop} {P : σ → α → Prop} {Q : α → σ → ω → Prop}
    (h : ∀ s a s' o, I s → P s a → step s a = some (s', o) → I s' ∨ Q a s' o)
    {s t : σ} {l : List α} {os : List ω} (hs : I s) (hP : Each step P s l)
    (hr : run step s l = some (t, os)) :
    I t ∨ ∃ m a k s₁ os₁ s₂ o, l = m ++ a :: k ∧ run step s m = some (s₁, os₁) ∧
      step s₁ a = some (s₂, o) ∧ Q a s₂ o := by
  induction l generalizing s os with
  | nil =>
    obtain ⟨rfl, -⟩ := Prod.mk.inj (Option.some.inj hr)
    exact Or.inl hs
  | cons a l ih =>
    obtain ⟨s', o, os', hstep, hrest, -⟩ := run_cons_some.mp hr
    rcases h s a s' o hs hP.1 hstep with hI | hQ
    · rcases ih hI (hP.2 s' o hstep) hrest with ht | ⟨m, b, k, s₁, os₁, s₂, o', rfl, hm, hb, hQ⟩
      · exact Or.inl ht
      · exact Or.inr ⟨a :: m, b, k, s₁, o :: os₁, s₂, o', rfl,
          run_cons_some.mpr ⟨s', o, os₁, hstep, hm, rfl⟩, hb, hQ⟩
    · exact Or.inr ⟨[], a, l, s, [], s', o, rfl, rfl, hstep, hQ⟩

/-! ### Two runs side by side -/

/-- Seen through `f` and `view`, a run is the run of its kept inputs alone: kept steps
commute with `f` and look alike, the others change nothing to be seen. -/
theorem run_erase {β : Type*} (f : σ → σ) (keep : α → Bool) (view : ω → Option β)
    {P : σ → α → Prop}
    (hkeep : ∀ s a s' o, P s a → keep a = true → step s a = some (s', o) →
      ∃ o', step (f s) a = some (f s', o') ∧ view o' = view o)
    (hdrop : ∀ s a s' o, P s a → keep a = false → step s a = some (s', o) →
      f s' = f s ∧ view o = none)
    {s t : σ} {l : List α} {os : List ω} (hP : Each step P s l)
    (hr : run step s l = some (t, os)) :
    ∃ os', run step (f s) (l.filter keep) = some (f t, os') ∧
      os'.filterMap view = os.filterMap view := by
  induction l generalizing s os with
  | nil =>
    obtain ⟨rfl, rfl⟩ := Prod.mk.inj (Option.some.inj hr)
    exact ⟨[], rfl, rfl⟩
  | cons a l ih =>
    obtain ⟨s', o, os₁, hs, hrest, rfl⟩ := run_cons_some.mp hr
    obtain ⟨os', hrun, hview⟩ := ih (hP.2 s' o hs) hrest
    rcases hk : keep a with _ | _
    · obtain ⟨hf, ho⟩ := hdrop s a s' o hP.1 hk hs
      rw [List.filter_cons_of_neg (by simp [hk]), List.filterMap_cons_none ho, ← hf]
      exact ⟨os', hrun, hview⟩
    · obtain ⟨o', hs', ho⟩ := hkeep s a s' o hP.1 hk hs
      rw [List.filter_cons_of_pos hk]
      refine ⟨o' :: os', run_cons_some.mpr ⟨f s', o', os', hs', hrun, rfl⟩, ?_⟩
      rw [List.filterMap_cons, List.filterMap_cons, ho, hview]

end TheKvm.Run

import Mathlib.Data.List.Induction
import Mathlib.Data.List.Infix
import Mathlib.Tactic.Common

/-!
Runs of a machine whose every step goes on.

The state after a list of inputs and the outputs on the way, with the rules that carry a
fact from the steps to the runs. A history grows at its end, so the inductions do too.
-/

namespace TheKvm.Trace

variable {σ α ω : Type*} (step : σ → α → σ × ω)

/-- The state after the inputs. -/
def final (s : σ) (l : List α) : σ := l.foldl (fun s a => (step s a).1) s

/-- What the steps put out. -/
def outputs : σ → List α → List ω
  | _, [] => []
  | s, a :: l => (step s a).2 :: outputs (step s a).1 l

@[simp] lemma final_nil (s : σ) : final step s [] = s := rfl

@[simp] lemma final_cons (s : σ) (a : α) (l : List α) :
    final step s (a :: l) = final step (step s a).1 l := rfl

lemma final_append (s : σ) (l m : List α) :
    final step s (l ++ m) = final step (final step s l) m := List.foldl_append

@[simp] lemma final_snoc (s : σ) (l : List α) (a : α) :
    final step s (l ++ [a]) = (step (final step s l) a).1 := by
  rw [final_append, final_cons, final_nil]

@[simp] lemma length_outputs (s : σ) (l : List α) : (outputs step s l).length = l.length := by
  induction l generalizing s with
  | nil => rfl
  | cons a l ih => rw [outputs, List.length_cons, List.length_cons, ih]

@[simp] lemma outputs_nil (s : σ) : outputs step s [] = [] := rfl

lemma outputs_append (s : σ) (l m : List α) :
    outputs step s (l ++ m) = outputs step s l ++ outputs step (final step s l) m := by
  induction l generalizing s with
  | nil => rfl
  | cons a l ih => rw [List.cons_append, outputs, ih, outputs, List.cons_append, final_cons]

@[simp] lemma outputs_snoc (s : σ) (l : List α) (a : α) :
    outputs step s (l ++ [a]) = outputs step s l ++ [(step (final step s l) a).2] :=
  outputs_append step s l [a]

/-! ### Places in a run -/

section

variable {k l m : List α} {a b : α}

/-- The inputs before one of a run. -/
lemma earlier (h : m ++ [a] <+: l) : m <+: l := (List.prefix_append _ _).trans h

lemma mem_of_snoc (h : m ++ [a] <+: l) : a ∈ l :=
  h.subset (List.mem_append_right m List.mem_cons_self)

/-- Two places of one run are the same, or one comes before the other. -/
lemma prefix_cases (hk : k ++ [a] <+: l) (hm : m ++ [b] <+: l) :
    k = m ∨ k ++ [a] <+: m ∨ m ++ [b] <+: k := by
  rcases lt_trichotomy k.length m.length with hlt | heq | hgt
  · refine Or.inr (Or.inl (List.prefix_of_prefix_length_le hk (earlier hm) ?_))
    rw [List.length_append]
    exact hlt
  · left
    exact (List.prefix_of_prefix_length_le (earlier hk) (earlier hm) heq.le).eq_of_length heq
  · refine Or.inr (Or.inr (List.prefix_of_prefix_length_le hm (earlier hk) ?_))
    rw [List.length_append]
    exact hgt

end

/-! ### What every step of a run meets -/

/-- Every input meets `P`, after the inputs before it. -/
def Each (P : List α → α → Prop) (l : List α) : Prop := ∀ m a, m ++ [a] <+: l → P m a

variable {step} {P Q : List α → α → Prop} {s : σ} {l m : List α} {a : α}

lemma each_nil : Each P [] := fun m a h => by simpa using List.prefix_nil.mp h

lemma each_snoc : Each P (l ++ [a]) ↔ Each P l ∧ P l a := by
  refine ⟨fun h => ⟨fun m b hm => h m b (hm.trans (List.prefix_append _ _)), h l a (by rfl)⟩, ?_⟩
  rintro ⟨hl, ha⟩ m b hm
  rcases List.prefix_concat_iff.mp hm with heq | hm
  · obtain ⟨rfl, hb⟩ := List.append_inj' heq rfl
    obtain rfl := List.singleton_inj.mp hb
    exact ha
  · exact hl m b hm

lemma each_singleton : Each P [a] ↔ P [] a := by
  rw [← List.nil_append [a], each_snoc, and_iff_right each_nil]

lemma Each.of_prefix (h : Each P l) (hm : m <+: l) : Each P m :=
  fun k a hk => h k a (hk.trans hm)

lemma Each.earlier (h : Each P l) (hm : m ++ [a] <+: l) : Each P m :=
  h.of_prefix (Trace.earlier hm)

lemma each_map {β : Type*} {f : β → α} {k : List β} :
    Each P (k.map f) ↔ Each (fun m b => P (m.map f) (f b)) k := by
  induction k using List.reverseRecOn with
  | nil => exact iff_of_true each_nil each_nil
  | append_singleton k b ih =>
    rw [List.map_append, List.map_singleton, each_snoc, each_snoc, ih]

/-- A condition that can be tested is tested place by place. -/
lemma each_iff_getElem : Each P l ↔ ∀ i : Fin l.length, P (l.take i) l[i] := by
  constructor
  · intro h i
    refine h _ _ ?_
    have htake : l.take i ++ [l[i]] = l.take (i + 1) := by simp
    rw [htake]
    exact List.take_prefix _ _
  · rintro h m a ⟨r, rfl⟩
    have hlt : m.length < (m ++ [a] ++ r).length := by simp
    simpa using h ⟨m.length, hlt⟩

instance decidableEach [∀ m a, Decidable (P m a)] : Decidable (Each P l) :=
  decidable_of_iff _ each_iff_getElem.symm

/-- What each step keeps between the inputs so far and the state holds at the end of a run. -/
theorem invariant {I : List α → σ → Prop} (hnil : I [] s)
    (hstep : ∀ m a, I m (final step s m) → P m a → I (m ++ [a]) (step (final step s m) a).1)
    (hP : Each P l) : I l (final step s l) := by
  induction l using List.reverseRecOn with
  | nil => exact hnil
  | append_singleton l a ih =>
    obtain ⟨hl, ha⟩ := each_snoc.mp hP
    rw [final_snoc]
    exact hstep l a (ih hl) ha

/-- What every step keeps, whatever its input. -/
theorem always {I : List α → σ → Prop} (hnil : I [] s)
    (hstep : ∀ m a, I m (final step s m) → I (m ++ [a]) (step (final step s m) a).1) :
    I l (final step s l) :=
  invariant (P := fun _ _ => True) hnil (fun m a h _ => hstep m a h) fun _ _ _ => trivial

/-- If along the runs that met `P` so far an input keeps `I` exactly if it meets `P`, the inputs
of a run all meet `P` exactly if the run and all its beginnings end in `I`. -/
theorem each_iff {I : List α → Prop} (hnil : I [])
    (hstep : ∀ m a, m ++ [a] <+: l → Each P m → (∀ k, k <+: m → I k) →
      (I (m ++ [a]) ↔ P m a)) :
    Each P l ↔ ∀ m, m <+: l → I m := by
  induction l using List.reverseRecOn with
  | nil =>
    refine iff_of_true each_nil fun m hm => ?_
    rwa [List.prefix_nil.mp hm]
  | append_singleton l a ih =>
    have hpre := List.prefix_append l [a]
    have ih := ih fun m b hm => hstep m b (hm.trans hpre)
    rw [each_snoc]
    constructor
    · rintro ⟨hl, ha⟩ m hm
      rcases List.prefix_concat_iff.mp hm with rfl | hm
      · exact (hstep l a (by rfl) hl (ih.mp hl)).mpr ha
      · exact ih.mp hl m hm
    · intro h
      have hbefore : ∀ m, m <+: l → I m := fun m hm => h m (hm.trans hpre)
      have hl := ih.mpr hbefore
      exact ⟨hl, (hstep l a (by rfl) hl hbefore).mp (h _ (by rfl))⟩

/-- Two conditions that agree along the runs that met the second so far are met by the same
runs. -/
theorem each_congr (h : ∀ m a, Each Q m → (P m a ↔ Q m a)) : Each P l ↔ Each Q l := by
  induction l using List.reverseRecOn with
  | nil => exact iff_of_true each_nil each_nil
  | append_singleton l a ih =>
    rw [each_snoc, each_snoc, ih]
    exact and_congr_right fun hl => h l a hl

/-- The first input that does not meet `P`. -/
theorem exists_first (h : ¬Each P l) : ∃ m a, m ++ [a] <+: l ∧ Each P m ∧ ¬P m a := by
  induction l using List.reverseRecOn with
  | nil => exact absurd each_nil h
  | append_singleton l a ih =>
    by_cases hl : Each P l
    · exact ⟨l, a, by rfl, hl, fun ha => h (each_snoc.mpr ⟨hl, ha⟩)⟩
    · obtain ⟨m, b, hm, hrest⟩ := ih hl
      exact ⟨m, b, hm.trans (List.prefix_append _ _), hrest⟩

end TheKvm.Trace

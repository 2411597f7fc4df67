import Mathlib.Data.Finset.Insert
import Mathlib.Data.Finset.Erase
import Mathlib.Data.List.Infix
import Mathlib.Tactic.Common

/-!
Controls that are pressed and released.

A transition is a control with the way it goes, and what is held is a fold over the
transitions. The last transition of a control decides whether it is held.
-/

namespace TheKvm.Held

variable {κ : Type*} [DecidableEq κ]

/-- What is held behind one more transition. -/
def turn (held : Finset κ) : κ × Bool → Finset κ
  | (c, true) => insert c held
  | (c, false) => held.erase c

/-- What is held behind some transitions. -/
def after (held : Finset κ) (l : List (κ × Bool)) : Finset κ := l.foldl turn held

variable {held held' : Finset κ} {l m : List (κ × Bool)} {e : κ × Bool} {c d : κ} {on : Bool}

@[simp] lemma turn_press : turn held (c, true) = insert c held := rfl

@[simp] lemma turn_release : turn held (c, false) = held.erase c := rfl

@[simp] lemma mem_turn_self : c ∈ turn held (c, on) ↔ on = true := by
  cases on <;> simp

lemma mem_turn_of_ne (h : d ≠ c) : d ∈ turn held (c, on) ↔ d ∈ held := by
  cases on <;> simp [h]

lemma mem_turn : d ∈ turn held (c, on) ↔ d = c ∧ on = true ∨ d ≠ c ∧ d ∈ held := by
  rcases eq_or_ne d c with rfl | h
  · simp
  · simp [mem_turn_of_ne h, h]

@[simp] lemma after_nil : after held [] = held := rfl

@[simp] lemma after_cons : after held (e :: l) = after (turn held e) l := rfl

lemma after_append : after held (l ++ m) = after (after held l) m := List.foldl_append

/-- What is held of a control is decided by its transitions, or by what was held before. -/
lemma after_eq (h : ∀ d, (d ∈ held ↔ d ∈ held') ∨ ∃ e ∈ l, e.1 = d) :
    after held l = after held' l := by
  induction l generalizing held held' with
  | nil => exact Finset.ext fun d => (h d).resolve_right (by simp)
  | cons e l ih =>
    obtain ⟨c, on⟩ := e
    refine ih fun d => ?_
    rcases eq_or_ne d c with rfl | hne
    · exact Or.inl (by simp)
    · rw [mem_turn_of_ne hne, mem_turn_of_ne hne]
      refine (h d).imp_right ?_
      rintro ⟨e, he, hd⟩
      rcases List.mem_cons.mp he with rfl | he
      · exact absurd hd.symm hne
      · exact ⟨e, he, hd⟩

lemma mem_after_of_untouched (h : ∀ e ∈ l, e.1 ≠ c) : c ∈ after held l ↔ c ∈ held := by
  induction l generalizing held with
  | nil => exact Iff.rfl
  | cons e l ih =>
    obtain ⟨d, on⟩ := e
    obtain ⟨hd, hl⟩ := List.forall_mem_cons.mp h
    rw [after_cons, ih hl, mem_turn_of_ne (Ne.symm hd)]

/-- A transition behind which another of its control comes, or which changes nothing, may be
left out. -/
lemma after_cons_of_idle (h : (∃ e ∈ l, e.1 = c) ∨ (c ∈ held ↔ on = true)) :
    after held ((c, on) :: l) = after held l := by
  rw [after_cons]
  refine after_eq fun d => ?_
  rcases eq_or_ne d c with rfl | hne
  · exact h.symm.imp (fun hidle => by rw [mem_turn_self, hidle]) id
  · exact Or.inl (mem_turn_of_ne hne)

lemma mem_after_releases (h : ∀ e ∈ l, e.2 = false) :
    c ∈ after held l ↔ c ∈ held ∧ (c, false) ∉ l := by
  induction l generalizing held with
  | nil => simp
  | cons e l ih =>
    obtain ⟨d, on⟩ := e
    obtain ⟨hd, hl⟩ := List.forall_mem_cons.mp h
    obtain rfl : on = false := hd
    rw [after_cons, ih hl, turn_release, Finset.mem_erase, List.mem_cons, Prod.mk.injEq,
      and_iff_left rfl]
    tauto

/-! ### Transitions that alternate -/

/-- Each control is pressed only when it is not held, and released only when it is. -/
def Alternates : Finset κ → List (κ × Bool) → Prop
  | _, [] => True
  | held, e :: l => (e.2 = true ↔ e.1 ∉ held) ∧ Alternates (turn held e) l

instance decidableAlternates : ∀ (held : Finset κ) (l : List (κ × Bool)),
    Decidable (Alternates held l)
  | _, [] => inferInstanceAs (Decidable True)
  | held, e :: l =>
    have := decidableAlternates (turn held e) l
    inferInstanceAs (Decidable ((e.2 = true ↔ e.1 ∉ held) ∧ Alternates (turn held e) l))

lemma alternates_append :
    Alternates held (l ++ m) ↔ Alternates held l ∧ Alternates (after held l) m := by
  induction l generalizing held with
  | nil => simp [Alternates]
  | cons e l ih => rw [List.cons_append, Alternates, ih, Alternates, after_cons, and_assoc]

lemma alternates_congr (h : ∀ e ∈ l, e.1 ∈ held ↔ e.1 ∈ held') :
    Alternates held l ↔ Alternates held' l := by
  induction l generalizing held held' with
  | nil => exact Iff.rfl
  | cons e l ih =>
    obtain ⟨c, on⟩ := e
    obtain ⟨hc, hl⟩ := List.forall_mem_cons.mp h
    have hturn : ∀ e ∈ l, e.1 ∈ turn held (c, on) ↔ e.1 ∈ turn held' (c, on) := by
      intro e he
      rw [mem_turn, mem_turn, hl e he]
    rw [Alternates, Alternates, ih hturn, hc]

/-- The transitions of one control. -/
def only (c : κ) (l : List (κ × Bool)) : List (κ × Bool) := l.filter (·.1 = c)

lemma only_append : only c (l ++ m) = only c l ++ only c m := List.filter_append _ _

lemma only_cons_self : only c ((c, on) :: l) = (c, on) :: only c l :=
  List.filter_cons_of_pos (decide_eq_true rfl)

lemma only_cons_ne (h : d ≠ c) : only c ((d, on) :: l) = only c l :=
  List.filter_cons_of_neg (by simpa using h)

lemma eq_of_mem_only {e : κ × Bool} (h : e ∈ only c l) : e.1 = c := by
  simpa using (List.mem_filter.mp h).2

/-- Transitions alternate if those of each control do. -/
lemma alternates_iff_only : Alternates held l ↔ ∀ c, Alternates held (only c l) := by
  induction l generalizing held with
  | nil => exact iff_of_true trivial fun c => trivial
  | cons e l ih =>
    obtain ⟨d, on⟩ := e
    have hother : ∀ c, d ≠ c →
        (Alternates (turn held (d, on)) (only c l) ↔ Alternates held (only c l)) := by
      intro c hne
      refine alternates_congr fun e he => ?_
      rw [eq_of_mem_only he, mem_turn_of_ne (Ne.symm hne)]
    rw [Alternates, ih]
    constructor
    · rintro ⟨hd, hl⟩ c
      rcases eq_or_ne d c with rfl | hne
      · rw [only_cons_self]
        exact ⟨hd, hl d⟩
      · rw [only_cons_ne hne]
        exact (hother c hne).mp (hl c)
    · intro h
      have hself := h d
      rw [only_cons_self] at hself
      refine ⟨hself.1, fun c => ?_⟩
      rcases eq_or_ne d c with rfl | hne
      · exact hself.2
      · have hc := h c
        rw [only_cons_ne hne] at hc
        exact (hother c hne).mpr hc

lemma mem_after_congr (h : c ∈ held ↔ c ∈ held') : c ∈ after held l ↔ c ∈ after held' l := by
  induction l generalizing held held' with
  | nil => exact h
  | cons e l ih =>
    obtain ⟨d, on⟩ := e
    refine ih ?_
    rw [mem_turn, mem_turn, h]

/-- What is held of a control is decided by its transitions. -/
lemma mem_after_only : c ∈ after held (only c l) ↔ c ∈ after held l := by
  induction l generalizing held with
  | nil => exact Iff.rfl
  | cons e l ih =>
    obtain ⟨d, on⟩ := e
    rcases eq_or_ne d c with rfl | hne
    · rw [only_cons_self, after_cons, ih, after_cons]
    · rw [only_cons_ne hne, ih, after_cons]
      exact mem_after_congr (mem_turn_of_ne (Ne.symm hne)).symm

lemma after_eq_of_only (h : ∀ c, only c l = only c m) : after held l = after held m := by
  ext c
  rw [← mem_after_only, h c, mem_after_only]

/-- Of one control as many transitions alternate in one way only. -/
lemma eq_of_alternates (hl : Alternates held l) (hm : Alternates held m)
    (hcl : ∀ e ∈ l, e.1 = c) (hcm : ∀ e ∈ m, e.1 = c) (hlength : l.length = m.length) : l = m := by
  induction l generalizing held m with
  | nil => exact (List.length_eq_zero_iff.mp hlength.symm).symm
  | cons e l ih =>
    rcases m with _ | ⟨e', m⟩
    · cases hlength
    obtain ⟨he, hrest⟩ := List.forall_mem_cons.mp hcl
    obtain ⟨he', hrest'⟩ := List.forall_mem_cons.mp hcm
    have hfirst : e = e' := by
      refine Prod.ext (he.trans he'.symm) (Bool.eq_iff_iff.mpr ?_)
      rw [hl.1, hm.1, he, he']
    subst hfirst
    rw [ih hl.2 hm.2 hrest hrest' (Nat.succ.inj hlength)]

/-- Reordered, transitions that alternate alternate again exactly if those of each control keep
their order. -/
theorem alternates_perm_iff (hl : Alternates held l) (hperm : l.Perm m) :
    Alternates held m ↔ ∀ c, only c m = only c l := by
  constructor
  · intro hm c
    refine eq_of_alternates (alternates_iff_only.mp hm c) (alternates_iff_only.mp hl c)
      (fun e he => eq_of_mem_only he) (fun e he => eq_of_mem_only he) ?_
    exact (hperm.symm.filter _).length_eq
  · intro h
    rw [alternates_iff_only]
    intro c
    rw [h c]
    exact alternates_iff_only.mp hl c

end TheKvm.Held

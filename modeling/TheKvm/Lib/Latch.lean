import Mathlib.Data.List.Induction
import Mathlib.Logic.Function.Basic
import Mathlib.Tactic.Common

/-!
Latches that events set and clear.

Each event concerns one latch or none. What a latch shows after some events is decided by the
last that concerns it, so events may be applied twice, and of some only a part.
-/

namespace TheKvm.Latch

variable {ε κ : Type*}

/-! ### What stands -/

/-- An event sets it, and none behind that clears it. -/
def Standing (sets clears : ε → Prop) (events : List ε) : Prop :=
  ∃ l e r, events = l ++ e :: r ∧ sets e ∧ ∀ x ∈ r, ¬clears x

section

variable {sets sets' clears : ε → Prop} {events : List ε} {e : ε}

lemma not_standing_nil : ¬Standing sets clears [] := by
  rintro ⟨l, e, r, h, -⟩
  exact absurd h (by simp)

lemma standing_snoc : Standing sets clears (events ++ [e]) ↔
    sets e ∨ Standing sets clears events ∧ ¬clears e := by
  constructor
  · rintro ⟨l, x, r, h, hx, hr⟩
    rcases List.eq_nil_or_concat r with rfl | ⟨r, y, rfl⟩
    · obtain ⟨-, hlast⟩ := List.append_inj' h rfl
      obtain rfl := List.singleton_inj.mp hlast
      exact Or.inl hx
    · have hsplit : events ++ [e] = (l ++ x :: r) ++ [y] := by
        rw [h, List.append_assoc, List.concat_eq_append, List.cons_append]
      obtain ⟨rfl, hlast⟩ := List.append_inj' hsplit rfl
      obtain rfl := List.singleton_inj.mp hlast
      rw [List.concat_eq_append] at hr
      refine Or.inr ⟨⟨l, x, r, rfl, hx, fun z hz => hr z (List.mem_append_left _ hz)⟩, ?_⟩
      exact hr e (List.mem_append_right _ List.mem_cons_self)
  · rintro (h | ⟨⟨l, x, r, rfl, hx, hr⟩, he⟩)
    · exact ⟨events, e, [], rfl, h, fun z hz => absurd hz List.not_mem_nil⟩
    · refine ⟨l, x, r ++ [e], by simp, hx, fun z hz => ?_⟩
      rcases List.mem_append.mp hz with hz | hz
      · exact hr z hz
      · obtain rfl := List.mem_singleton.mp hz
        exact he

lemma Standing.imp (h : Standing sets clears events)
    (himp : ∀ e ∈ events, sets e → sets' e) : Standing sets' clears events := by
  obtain ⟨l, e, r, rfl, he, hr⟩ := h
  exact ⟨l, e, r, rfl, himp e (List.mem_append_right l List.mem_cons_self) he, hr⟩

end

/-! ### Latches set last -/

variable (signal : ε → Option (κ × Bool))

def Uncleared (c : κ) (events : List ε) : Prop := ∀ x ∈ events, signal x ≠ some (c, false)

/-- It is set, and not cleared behind that. -/
def SetLast (c : κ) (events : List ε) : Prop :=
  ∃ l e r, events = l ++ e :: r ∧ signal e = some (c, true) ∧ Uncleared signal c r

variable {signal} {events : List ε} {e : ε} {c : κ}

lemma not_setLast_nil : ¬SetLast signal c [] := not_standing_nil

lemma setLast_snoc : SetLast signal c (events ++ [e]) ↔
    signal e = some (c, true) ∨ SetLast signal c events ∧ signal e ≠ some (c, false) :=
  standing_snoc

lemma uncleared_snoc : Uncleared signal c (events ++ [e]) ↔
    Uncleared signal c events ∧ signal e ≠ some (c, false) := by
  simp only [Uncleared, List.forall_mem_append, List.forall_mem_singleton]

/-- If what clears is kept, a latch is set last among the kept events exactly if a kept event
sets it and it is not cleared behind that. -/
lemma setLast_filter {p : ε → Bool} (hclear : ∀ x, signal x = some (c, false) → p x = true) :
    SetLast signal c (events.filter p) ↔
      ∃ l e r, events = l ++ e :: r ∧ p e = true ∧ signal e = some (c, true) ∧
        Uncleared signal c r := by
  constructor
  · rintro ⟨l, e, r, h, he, hr⟩
    obtain ⟨l', rest, rfl, -, hrest⟩ := List.filter_eq_append_iff.mp h
    obtain ⟨m, r', rfl, -, hp, rfl⟩ := List.filter_eq_cons_iff.mp hrest
    refine ⟨l' ++ m, e, r', by rw [List.append_assoc], hp, he, fun x hx hcleared => ?_⟩
    exact hr x (List.mem_filter.mpr ⟨hx, hclear x hcleared⟩) hcleared
  · rintro ⟨l, e, r, rfl, hp, he, hr⟩
    refine ⟨l.filter p, e, r.filter p, ?_, he, fun x hx => hr x ((List.mem_filter.mp hx).1)⟩
    rw [List.filter_append, List.filter_cons_of_pos hp]

/-- If what clears is kept, no latch is set by the kept events that all of them do not set. -/
lemma SetLast.of_filter {p : ε → Bool} (hclear : ∀ x, signal x = some (c, false) → p x = true)
    (h : SetLast signal c (events.filter p)) : SetLast signal c events := by
  obtain ⟨l, e, r, hsplit, -, he, hr⟩ := (setLast_filter hclear).mp h
  exact ⟨l, e, r, hsplit, he, hr⟩

lemma uncleared_filter {p : ε → Bool} (hclear : ∀ x, signal x = some (c, false) → p x = true) :
    Uncleared signal c (events.filter p) ↔ Uncleared signal c events := by
  refine ⟨fun h x hx hcleared => ?_, fun h x hx => h x ((List.mem_filter.mp hx).1)⟩
  exact h x (List.mem_filter.mpr ⟨hx, hclear x hcleared⟩) hcleared

/-! ### What a latch shows -/

variable [DecidableEq κ]

def apply (signal : ε → Option (κ × Bool)) (held : κ → Prop) (e : ε) : κ → Prop :=
  match signal e with
  | some (c, on) => Function.update held c (on = true)
  | none => held

def run (signal : ε → Option (κ × Bool)) (held : κ → Prop) (events : List ε) : κ → Prop :=
  events.foldl (apply signal) held

variable {held : κ → Prop}

lemma apply_iff : apply signal held e c ↔
    signal e = some (c, true) ∨ held c ∧ signal e ≠ some (c, false) := by
  rw [apply]
  rcases hsignal : signal e with _ | ⟨d, on⟩
  · simp
  · by_cases hd : c = d
    · subst hd
      cases on <;> simp
    · simp [Function.update_of_ne hd, Ne.symm hd]

/-- A latch is set last, or was set and is not cleared. -/
theorem run_iff : run signal held events c ↔
    SetLast signal c events ∨ held c ∧ Uncleared signal c events := by
  induction events using List.reverseRecOn with
  | nil =>
    simp only [run, List.foldl_nil, iff_false_intro not_setLast_nil, false_or]
    exact (and_iff_left fun x hx => absurd hx List.not_mem_nil).symm
  | append_singleton events e ih =>
    have hfold : run signal held (events ++ [e]) = apply signal (run signal held events) e :=
      List.foldl_append
    rw [hfold, apply_iff, ih, setLast_snoc, uncleared_snoc]
    tauto

/-- Applied once more, the same events change nothing. -/
theorem run_run : run signal (run signal held events) events = run signal held events := by
  funext c
  rw [eq_iff_iff, run_iff, run_iff]
  tauto

/-- The kept events do as all of them, if what clears is kept, exactly if each latch that is set
last is set by a kept event it is not cleared behind, or was set and is not cleared. -/
theorem run_filter_iff {p : ε → Bool} (hclear : ∀ c x, signal x = some (c, false) → p x = true) :
    run signal held (events.filter p) = run signal held events ↔
      ∀ c, SetLast signal c events →
        (∃ l e r, events = l ++ e :: r ∧ p e = true ∧ signal e = some (c, true) ∧
          Uncleared signal c r) ∨ held c ∧ Uncleared signal c events := by
  rw [funext_iff]
  refine forall_congr' fun c => ?_
  rw [eq_iff_iff, run_iff, run_iff, uncleared_filter (hclear c), ← setLast_filter (hclear c)]
  have hof : SetLast signal c (events.filter p) → SetLast signal c events :=
    SetLast.of_filter (hclear c)
  tauto

end TheKvm.Latch

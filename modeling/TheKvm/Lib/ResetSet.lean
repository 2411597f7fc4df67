import Mathlib.Data.Finset.Card
import Mathlib.Tactic.Common

/-!
A bounded set that forgets everything when it is full.

`record` is the set; `SinceReset` says what it remembers in terms of the calls alone: those
since it last held a full number of distinct members and was given another.
-/

namespace TheKvm.ResetSet

variable {α : Type*} [DecidableEq α] {cap : ℕ}

/-- Add a member, to an empty set if the set is full. -/
def record (cap : ℕ) (s : Finset α) (a : α) : Finset α :=
  insert a (if cap ≤ s.card then ∅ else s)

lemma mem_record (cap : ℕ) (s : Finset α) (a : α) : a ∈ record cap s a :=
  Finset.mem_insert_self _ _

/-- Distinct members that fit are all remembered. -/
lemma foldl_record {l : List α} (hl : l.Nodup) {s : Finset α} (hdisjoint : ∀ a ∈ l, a ∉ s)
    (hfit : s.card + l.length ≤ cap) : l.foldl (record cap) s = s ∪ l.toFinset := by
  induction l generalizing s with
  | nil => simp
  | cons a l ih =>
    obtain ⟨ha, hl⟩ := List.nodup_cons.mp hl
    have hlen : s.card + (l.length + 1) ≤ cap := hfit
    have hrecord : record cap s a = insert a s := by
      rw [record, if_neg (by omega)]
    have hcard : (insert a s).card = s.card + 1 :=
      Finset.card_insert_of_notMem (hdisjoint a List.mem_cons_self)
    rw [List.foldl_cons, hrecord, ih hl ?_ (by omega), List.toFinset_cons, Finset.insert_union,
      Finset.union_insert]
    intro b hb
    rw [Finset.mem_insert, not_or]
    exact ⟨fun hba => ha (hba ▸ hb), hdisjoint b (List.mem_cons_of_mem _ hb)⟩

/-- The calls since the last reset: a call resets if it brings a new member when `cap`
distinct ones were called since the reset before. -/
inductive SinceReset (cap : ℕ) : List α → List α → Prop
  | start : SinceReset cap [] []
  | keep {calls recent : List α} {a : α} (h : SinceReset cap calls recent)
      (hkeep : a ∈ recent ∨ recent.toFinset.card < cap) :
      SinceReset cap (calls ++ [a]) (recent ++ [a])
  | reset {calls recent : List α} {a : α} (h : SinceReset cap calls recent) (hnew : a ∉ recent)
      (hfull : cap ≤ recent.toFinset.card) : SinceReset cap (calls ++ [a]) [a]

namespace SinceReset

variable {calls recent : List α}

/-- They have at most `cap` distinct members. -/
lemma card_le (hcap : 0 < cap) (h : SinceReset cap calls recent) :
    recent.toFinset.card ≤ cap := by
  induction h with
  | start => simp
  | @keep calls recent a h hkeep ih =>
    rw [List.toFinset_append, List.toFinset_cons, List.toFinset_nil]
    rcases hkeep with hmem | hlt
    · rw [insert_empty_eq, Finset.union_singleton,
        Finset.insert_eq_of_mem (List.mem_toFinset.mpr hmem)]
      exact ih
    · rw [insert_empty_eq, Finset.union_singleton]
      calc (insert a recent.toFinset).card ≤ recent.toFinset.card + 1 := Finset.card_insert_le _ _
        _ ≤ cap := hlt
  | @reset calls recent a h hnew hfull ih =>
    show ({a} : Finset α).card ≤ cap
    rw [Finset.card_singleton]
    exact hcap

/-- One call more has no fewer members. -/
lemma card_snoc_le (calls : List α) (a : α) :
    calls.toFinset.card ≤ (calls ++ [a]).toFinset.card := by
  apply Finset.card_le_card
  rw [List.toFinset_append]
  exact Finset.subset_union_left

/-- As long as at most `cap` distinct members were called, they are all the calls. -/
lemma eq_calls (h : SinceReset cap calls recent) (hfew : calls.toFinset.card ≤ cap) :
    recent = calls := by
  induction h with
  | start => rfl
  | @keep calls recent a h hkeep ih =>
    rw [ih ((card_snoc_le calls a).trans hfew)]
  | @reset calls recent a h hnew hfull ih =>
    have heq := ih ((card_snoc_le calls a).trans hfew)
    rw [heq] at hnew hfull
    rw [List.toFinset_append, List.toFinset_cons, List.toFinset_nil, insert_empty_eq,
      Finset.union_singleton,
      Finset.card_insert_of_notMem fun hm => hnew (List.mem_toFinset.mp hm)] at hfew
    omega

/-- **The set remembers the calls since its last reset**, as long as a full set is only given
new members. -/
theorem record (h : SinceReset cap calls recent) {a : α}
    (hfresh : cap ≤ recent.toFinset.card → a ∉ recent) :
    ∃ recent', SinceReset cap (calls ++ [a]) recent' ∧
      recent'.toFinset = ResetSet.record cap recent.toFinset a := by
  by_cases hfull : cap ≤ recent.toFinset.card
  · refine ⟨[a], h.reset (hfresh hfull) hfull, ?_⟩
    rw [ResetSet.record, if_pos hfull]
    rfl
  · refine ⟨recent ++ [a], h.keep (Or.inr (by omega)), ?_⟩
    rw [ResetSet.record, if_neg hfull, List.toFinset_append, List.toFinset_cons,
      List.toFinset_nil, insert_empty_eq, Finset.union_singleton]

end SinceReset

end TheKvm.ResetSet

import Mathlib.Algebra.BigOperators.Group.List.Basic
import Mathlib.Algebra.GroupWithZero.Nat
import Mathlib.Algebra.Order.BigOperators.Group.List
import Mathlib.Algebra.Order.Group.Nat
import Mathlib.Data.List.AList
import Mathlib.Data.Nat.Basic

/-!
Counters read under keys, and how far a later reading rises over an earlier one.

Readings merge by maximum. A reading covers a value if the events of its key since then explain
the rest.
-/

namespace TheKvm

variable {κ : Type*} [DecidableEq κ]

abbrev Totals (κ : Type*) := AList fun _ : κ => ℕ

namespace Totals

/-! ### Merging by maximum -/

def raise (t : Totals κ) (k : κ) (count : ℕ) : Totals κ :=
  t.insert k ((t.lookup k).elim count (max · count))

lemma lookup_raise_ne (t : Totals κ) {k k' : κ} (count : ℕ) (h : k' ≠ k) :
    (t.raise k count).lookup k' = t.lookup k' := AList.lookup_insert_ne h

/-- What a merge holds was there or is new. -/
lemma raise_cases {t : Totals κ} {k k' : κ} {count v : ℕ}
    (h : (t.raise k count).lookup k' = some v) : t.lookup k' = some v ∨ k' = k ∧ v = count := by
  by_cases hk : k' = k
  · subst hk
    rw [raise, AList.lookup_insert, Option.some.injEq] at h
    rcases hold : t.lookup k' with _ | old
    · rw [hold] at h
      exact Or.inr ⟨rfl, h.symm⟩
    · rw [hold, Option.elim_some] at h
      rcases max_choice old count with hmax | hmax
      · exact Or.inl (by rw [← h, hmax])
      · exact Or.inr ⟨rfl, by rw [← h, hmax]⟩
  · rw [lookup_raise_ne t count hk] at h
    exact Or.inl h

/-! ### Covering -/

/-- The reading and the events since explain the value. -/
def Covers (base : Totals κ) (events : List κ) (k : κ) (v : ℕ) : Prop :=
  ∀ b, base.lookup k = some b → v ≤ b + events.count k

section

variable {base current : Totals κ} {events : List κ} {k : κ} {v w : ℕ}

lemma Covers.anti (h : base.Covers events k v) (hw : w ≤ v) : base.Covers events k w := by
  intro b hb
  calc w ≤ v := hw
    _ ≤ b + events.count k := h b hb

lemma Covers.later (h : base.Covers events k v) (e : κ) : base.Covers (e :: events) k v := by
  intro b hb
  calc v ≤ b + events.count k := h b hb
    _ ≤ b + (e :: events).count k := Nat.add_le_add_left List.count_le_count_cons b

/-- An event of the key explains one more. -/
lemma Covers.succ (h : base.Covers events k v) : base.Covers (k :: events) k (v + 1) := by
  intro b hb
  calc v + 1 ≤ b + events.count k + 1 := Nat.succ_le_succ (h b hb)
    _ = b + (k :: events).count k := by rw [List.count_cons_self, Nat.add_assoc]

/-- A reading covers itself. -/
lemma covers_of_lookup (h : base.lookup k = some v) : base.Covers events k v := by
  intro b hb
  rw [Option.some.inj (hb.symm.trans h)]
  exact Nat.le_add_right v _

/-- Keys that a newer reading misses keep the old one. -/
lemma Covers.union (hnew : current.Covers events k v) (hold : base.Covers events k v) :
    (current ∪ base).Covers events k v := by
  intro b hb
  rcases AList.lookup_union_eq_some.mp hb with hcurrent | ⟨-, hbase⟩
  · exact hnew b hcurrent
  · exact hold b hbase

end

/-! ### The rise -/

/-- How far one counter rose over a reading of it. -/
def grown (base : Option ℕ) (count : ℕ) : ℕ := base.elim 0 (count - ·)

/-- The rises of the keys that both readings hold. -/
def rise (base current : Totals κ) : ℕ :=
  (current.entries.map fun e => grown (base.lookup e.1) e.2).sum

/-- Distinct keys share the events out. -/
lemma sum_count_le {keys : List κ} (h : keys.Nodup) (events : List κ) :
    (keys.map events.count).sum ≤ events.length := by
  induction events with
  | nil => simp
  | cons e events ih =>
    have hsplit : (keys.map (e :: events).count).sum =
        (keys.map events.count).sum + keys.count e := by
      clear ih h
      induction keys with
      | nil => rfl
      | cons k keys ih =>
        rw [List.map_cons, List.sum_cons, ih, List.map_cons, List.sum_cons, List.count_cons,
          List.count_cons]
        simp only [beq_iff_eq, eq_comm (a := k)]
        omega
    have hone := List.nodup_iff_count_le_one.mp h e
    calc (keys.map (e :: events).count).sum
        = (keys.map events.count).sum + keys.count e := hsplit
      _ ≤ events.length + 1 := Nat.add_le_add ih hone
      _ = (e :: events).length := List.length_cons.symm

/-- **The events bound the rise** over a reading that covers the later one. -/
theorem rise_le {base current : Totals κ} {events : List κ}
    (h : ∀ k v, current.lookup k = some v → base.Covers events k v) :
    rise base current ≤ events.length := by
  have hnodup : (current.entries.map Sigma.fst).Nodup := current.nodupKeys
  calc rise base current
      ≤ (current.entries.map fun e => events.count e.1).sum := by
        refine List.sum_le_sum fun e he => ?_
        rcases hbase : base.lookup e.1 with _ | b
        · exact Nat.zero_le _
        · have hv := h e.1 e.2 (AList.mem_lookup_iff.mpr he) b hbase
          exact Nat.sub_le_iff_le_add'.mpr hv
    _ = ((current.entries.map Sigma.fst).map events.count).sum := by rw [List.map_map]; rfl
    _ ≤ events.length := sum_count_le hnodup events

end Totals

end TheKvm

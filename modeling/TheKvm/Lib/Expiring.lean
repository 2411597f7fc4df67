import Mathlib.Algebra.Order.Group.Nat
import Mathlib.Data.List.AList

/-!
Entries that expire, under keys.

Each key holds the time it was put in. Pruning keeps the young entries, unless those are more
than the cap: then it keeps none.
-/

namespace TheKvm

abbrev Expiring (κ : Type*) := AList fun _ : κ => ℕ

namespace Expiring

variable {κ : Type*}

def retain (m : Expiring κ) (p : κ → ℕ → Bool) : Expiring κ where
  entries := m.entries.filter fun e => p e.1 e.2
  nodupKeys := m.nodupKeys.sublist List.filter_sublist

def young (ttl now : ℕ) (m : Expiring κ) : Expiring κ := m.retain fun _ since => now - since < ttl

def prune (ttl cap now : ℕ) (m : Expiring κ) : Expiring κ :=
  if cap < (m.young ttl now).entries.length then ∅ else m.young ttl now

variable {m : Expiring κ} {p : κ → ℕ → Bool} {k : κ} {t ttl cap now : ℕ}

lemma entries_young :
    (m.young ttl now).entries = m.entries.filter fun e => now - e.2 < ttl := rfl

lemma length_retain_le : (m.retain p).entries.length ≤ m.entries.length :=
  List.length_filter_le _ _

lemma length_prune_le : (m.prune ttl cap now).entries.length ≤ cap := by
  unfold prune
  split_ifs with hfull
  · exact Nat.zero_le _
  · exact Nat.le_of_not_lt hfull

/-- Entries that fit are pruned of the old ones. -/
lemma prune_of_le (h : (m.young ttl now).entries.length ≤ cap) :
    m.prune ttl cap now = m.young ttl now := if_neg h.not_gt

lemma prune_of_length_le (h : m.entries.length ≤ cap) : m.prune ttl cap now = m.young ttl now :=
  prune_of_le (length_retain_le.trans h)

variable [DecidableEq κ]

lemma lookup_retain : (m.retain p).lookup k = some t ↔ m.lookup k = some t ∧ p k t = true := by
  rw [← Option.mem_def, ← Option.mem_def, AList.mem_lookup_iff, AList.mem_lookup_iff]
  exact List.mem_filter

lemma lookup_young : (m.young ttl now).lookup k = some t ↔
    m.lookup k = some t ∧ now - t < ttl := by
  rw [young, lookup_retain, decide_eq_true_iff]

/-- What is left was there and is young. -/
lemma lookup_of_prune (h : (m.prune ttl cap now).lookup k = some t) :
    m.lookup k = some t ∧ now - t < ttl := by
  unfold prune at h
  split_ifs at h
  · cases h
  · exact lookup_young.mp h

/-- A fresh entry counts with the young ones of other keys. -/
lemma length_young_insert (httl : 0 < ttl) :
    (young ttl now (m.insert k now)).entries.length =
      (young ttl now (m.erase k)).entries.length + 1 := by
  have hfresh : now - now < ttl := by rwa [Nat.sub_self]
  have hentries : (young ttl now (m.insert k now)).entries =
      ⟨k, now⟩ :: (young ttl now (m.erase k)).entries := by
    rw [entries_young, AList.entries_insert]
    exact List.filter_cons_of_pos (decide_eq_true hfresh)
  rw [hentries, List.length_cons]

end Expiring

end TheKvm

import Mathlib.Data.List.Nodup

/-!
Lists with one entry a key, looked up by it.
-/

namespace TheKvm.Keyed

variable {α κ : Type*} {key : α → κ} {l : List α} {a b : α} {k : κ}

/-- Two entries of a key are the same. -/
lemma unique (hn : (l.map key).Nodup) (ha : a ∈ l) (hb : b ∈ l) (h : key a = key b) : a = b :=
  List.inj_on_of_nodup_map hn ha hb h

/-- The other entries keep their keys apart. -/
lemma nodup_filter (hn : (l.map key).Nodup) (p : α → Bool) : ((l.filter p).map key).Nodup :=
  hn.sublist (List.filter_sublist.map key)

variable [DecidableEq κ]

/-- A key is looked up to the entry that has it. -/
lemma find?_iff (hn : (l.map key).Nodup) :
    (l.find? fun a => decide (key a = k)) = some a ↔ a ∈ l ∧ key a = k := by
  constructor
  · intro h
    exact ⟨List.mem_of_find?_eq_some h, by simpa using List.find?_some h⟩
  · rintro ⟨ha, rfl⟩
    obtain ⟨b, hb⟩ : ∃ b, (l.find? fun b => decide (key b = key a)) = some b :=
      Option.isSome_iff_exists.mp (List.find?_isSome.mpr ⟨a, ha, decide_eq_true rfl⟩)
    have hkey : key b = key a := by simpa using List.find?_some hb
    rw [hb, unique hn (List.mem_of_find?_eq_some hb) ha hkey]

/-- An entry put in the place of the one that has its key. -/
lemma nodup_replace (hn : (l.map key).Nodup) (a : α) :
    ((l.filter (fun b => decide (key b ≠ key a)) ++ [a]).map key).Nodup := by
  rw [List.map_append]
  refine List.Nodup.append (nodup_filter hn _) (by simp) ?_
  simp only [List.map_cons, List.map_nil, List.disjoint_singleton, List.mem_map,
    List.mem_filter, decide_eq_true_eq, not_exists, not_and]
  exact fun b hkept heq => hkept.2 heq

end TheKvm.Keyed

import Mathlib.Data.List.Perm.Basic
import Mathlib.Tactic.Common

/-!
Search along a path of places, each of which may hold some of the names.

The order of the places comes before that of the names: the first place that holds any of the names
is taken, and of that place the first name that it holds.
-/

namespace TheKvm.SearchPath

variable {δ ν : Type*} (holds : δ → ν → Bool)

def search (places : List δ) (names : List ν) : Option (δ × ν) :=
  places.findSome? fun d => (names.find? (holds d)).map fun n => (d, n)

/-- The place of the search, which does not depend on the order of the names. -/
def holder (places : List δ) (names : List ν) : Option δ :=
  places.find? fun d => names.any (holds d)

variable {holds} {places : List δ} {names names' : List ν} {d : δ} {n m : ν}

lemma search_eq_bind : search holds places names =
    (holder holds places names).bind fun d => (names.find? (holds d)).map fun n => (d, n) := by
  induction places with
  | nil => rfl
  | cons d places ih =>
    rw [search, List.findSome?_cons, holder, List.find?_cons]
    cases hfind : names.find? (holds d) with
    | none =>
      have hany : names.any (holds d) = false := by simpa using hfind
      rw [hany]
      exact ih
    | some n =>
      have hany : names.any (holds d) = true :=
        List.any_eq_true.mpr ⟨n, List.mem_of_find?_eq_some hfind, List.find?_some hfind⟩
      rw [hany]
      simp [hfind]

lemma search_isSome_iff : (search holds places names).isSome = true ↔
    ∃ d ∈ places, ∃ n ∈ names, holds d n = true := by
  simp [search]

lemma holder_perm (h : names.Perm names') :
    holder holds places names = holder holds places names' := by
  have hany (d : δ) : names.any (holds d) = names'.any (holds d) := by
    rw [Bool.eq_iff_iff, List.any_eq_true, List.any_eq_true]
    simp only [h.mem_iff]
  rw [holder, holder]
  simp only [hany]

lemma search_eq_some (h : search holds places names = some (d, n)) :
    holder holds places names = some d ∧ names.find? (holds d) = some n := by
  rw [search_eq_bind, Option.bind_eq_some_iff] at h
  obtain ⟨d', hholder, hfind⟩ := h
  obtain ⟨n', hn, hpair⟩ := Option.map_eq_some_iff.mp hfind
  obtain ⟨rfl, rfl⟩ := Prod.mk.inj hpair
  exact ⟨hholder, hn⟩

/-- What is found is at its place. -/
lemma mem_of_search (h : search holds places names = some (d, n)) :
    d ∈ places ∧ n ∈ names ∧ holds d n = true := by
  obtain ⟨hholder, hfind⟩ := search_eq_some h
  exact ⟨List.mem_of_find?_eq_some hholder, List.mem_of_find?_eq_some hfind,
    List.find?_some hfind⟩

/-- The name that is preferred is found if the place of the search holds it. -/
lemma search_of_preferred (h : search holds places (n :: names) = some (d, m))
    (hn : holds d n = true) : m = n := by
  have hfind := (search_eq_some h).2
  rw [List.find?_cons, hn] at hfind
  exact (Option.some.inj hfind).symm

end TheKvm.SearchPath

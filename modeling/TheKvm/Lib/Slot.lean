import Mathlib.Tactic.Common

/-!
One slot among any number of holders.

The slot is free when nobody holds it, and has one holder otherwise. A step concerns one of them:
it takes the slot, gives it back, or leaves it.
-/

namespace TheKvm.Slot

variable {ι : Type*} {free : Bool} {holds holds' : ι → Prop} {i j : ι}

def Single (free : Bool) (holds : ι → Prop) : Prop :=
  (free = true ∧ ∀ i, ¬holds i) ∨ (free = false ∧ ∃ i, ∀ j, holds j ↔ j = i)

lemma single_free : Single true fun _ : ι => False := Or.inl ⟨rfl, fun _ => id⟩

/-- Two holders are one. -/
lemma Single.unique (h : Single free holds) (hi : holds i) (hj : holds j) : i = j := by
  rcases h with ⟨-, hnone⟩ | ⟨-, k, hk⟩
  · exact absurd hi (hnone i)
  · rw [(hk i).mp hi, (hk j).mp hj]

lemma Single.not_free (h : Single free holds) (hi : holds i) : free = false := by
  rcases h with ⟨-, hnone⟩ | ⟨hfree, -⟩
  · exact absurd hi (hnone i)
  · exact hfree

/-- Nothing changes hands. -/
lemma Single.keep (h : Single free holds) (hsame : ∀ j, holds' j ↔ holds j) :
    Single free holds' := by
  rwa [show holds' = holds from funext fun j => propext (hsame j)]

lemma Single.take (h : Single true holds) (hi : holds' i)
    (hother : ∀ j, j ≠ i → (holds' j ↔ holds j)) : Single false holds' := by
  refine Or.inr ⟨rfl, i, fun j => ⟨fun hj => ?_, ?_⟩⟩
  · by_contra hne
    have hfree := h.not_free ((hother j hne).mp hj)
    cases hfree
  · rintro rfl
    exact hi

/-- Giving up what one may not hold. -/
lemma Single.drop (h : Single free holds) {held : Bool} (hheld : held = true ↔ holds i)
    (hi : ¬holds' i) (hother : ∀ j, j ≠ i → (holds' j ↔ holds j)) :
    Single (free || held) holds' := by
  rcases hb : held
  · have hnot : ¬holds i := fun hi => by simp [hheld.mpr hi] at hb
    rw [Bool.or_false]
    refine h.keep fun j => ?_
    by_cases hj : j = i
    · rw [hj]
      exact iff_of_false hi hnot
    · exact hother j hj
  · rw [Bool.or_true]
    refine Or.inl ⟨rfl, fun j hj => ?_⟩
    by_cases hji : j = i
    · exact hi (hji ▸ hj)
    · exact hji (h.unique ((hother j hji).mp hj) (hheld.mp hb))

end TheKvm.Slot

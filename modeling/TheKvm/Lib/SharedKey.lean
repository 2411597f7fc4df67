import Mathlib.Tactic.Common
import Mathlib.Tactic.Tauto

/-!
A key that its owner shares with a borrower.

The borrower presses the key only if it is up, and lets go of it when done. Both act on one key, so
what either does may undo what the other holds.
-/

namespace TheKvm

@[ext] structure SharedKey where
  down : Bool
  /-- The borrower has pressed it and not given it back. -/
  borrowed : Bool
  /-- The owner holds it. -/
  owned : Bool
  /-- Its owner let go of it since it was borrowed. -/
  lowered : Bool
  /-- The borrower is at work. -/
  working : Bool

namespace SharedKey

inductive Move
  | idle
  | own (down : Bool)
  /-- Everything is let go and the owner's hold set anew; the loan may end with it. -/
  | reset (down ends : Bool)
  /-- The borrower goes to work, and may do without the key. -/
  | start
  | borrow (uses : Bool)
  | giveBack

def step (s : SharedKey) : Move → SharedKey
  | .idle => s
  | .own down =>
    { s with down, owned := down, lowered := s.borrowed && (s.lowered || !down) }
  | .reset down ends =>
    let borrowed := s.borrowed && !ends
    ⟨down, borrowed, down, borrowed && (s.lowered || !down), false⟩
  | .start => { s with working := true }
  | .borrow _ =>
    { s with down := s.down || !s.borrowed, borrowed := s.borrowed || !s.down, working := true }
  | .giveBack => ⟨s.down && !s.borrowed, false, s.owned, false, false⟩

/-- A use finds the key down, what is given back was not the owner's, and where nobody is at work
the key is as its owner has it. -/
structure Fair (s : SharedKey) (m : Move) : Prop where
  used : m = .borrow true → (s.step m).down = true
  kept : m = .giveBack → s.owned = true → s.borrowed = false
  owners : (s.step m).working = false → (s.step m).down = (s.step m).owned

/-- The owner stays out of the loans: it does not hold the key when one is given back, and no use
comes behind a release of its own. -/
def Undisturbed (s : SharedKey) : Move → Prop
  | .borrow uses => uses = true → s.borrowed = true → s.owned = false → s.lowered = false
  | .giveBack => s.borrowed = true → s.owned = false
  | _ => True

/-- The key is down for its owner, or for a loan that no release undid. -/
structure InStep (s : SharedKey) : Prop where
  down : s.down = (s.owned || (s.borrowed && !s.lowered))
  lowered : s.lowered = true → s.borrowed = true
  resting : s.working = false → s.borrowed = true → s.owned = true ∨ s.lowered = true

variable {s : SharedKey}

/-- Behind a rest the key is as its owner has it. -/
lemma InStep.owners (h : s.InStep) (hrest : s.working = false) : s.down = s.owned := by
  obtain ⟨hdown, -, hresting⟩ := h
  rw [hdown]
  cases hborrowed : s.borrowed with
  | false => simp
  | true => rcases hresting hrest hborrowed with hown | hlow <;> simp [*]

lemma InStep.step (h : s.InStep) {m : Move} (hm : s.Undisturbed m) : (s.step m).InStep := by
  obtain ⟨hdown, hlowered, hresting⟩ := h
  cases m with
  | idle => exact ⟨hdown, hlowered, hresting⟩
  | own down =>
    refine ⟨by cases down <;> simp [SharedKey.step], fun hlow => ?_, fun _ hborrowed => ?_⟩
    · exact (Bool.and_eq_true_iff.mp hlow).1
    · cases down with
      | true => exact Or.inl rfl
      | false => exact Or.inr (by simpa [SharedKey.step] using hborrowed)
  | reset down ends =>
    refine ⟨by cases down <;> simp [SharedKey.step], fun hlow => ?_, fun _ hborrowed => ?_⟩
    · exact (Bool.and_eq_true_iff.mp hlow).1
    · cases down with
      | true => exact Or.inl rfl
      | false => exact Or.inr (by simpa [SharedKey.step] using hborrowed)
  | start => exact ⟨hdown, hlowered, fun hworking => absurd hworking Bool.false_ne_true.symm⟩
  | borrow uses =>
    refine ⟨?_, fun hlow => ?_, fun hworking => absurd hworking Bool.false_ne_true.symm⟩
    · simp only [SharedKey.step, hdown]
      cases hborrowed : s.borrowed with
      | true => simp
      | false =>
        have hlow : s.lowered = false := by
          by_contra hlow
          exact absurd (hlowered (by simpa using hlow)) (by simp [hborrowed])
        simp [hlow]
    · simp [SharedKey.step, hlowered hlow]
  | giveBack =>
    refine ⟨?_, fun hlow => absurd hlow Bool.false_ne_true,
      fun _ hborrowed => absurd hborrowed Bool.false_ne_true⟩
    simp only [SharedKey.step, hdown]
    cases hborrowed : s.borrowed with
    | false => simp
    | true => simp [hm hborrowed]

/-- A move is fair exactly if it disturbs no loan. -/
theorem InStep.fair_iff (h : s.InStep) (m : Move) : s.Fair m ↔ s.Undisturbed m := by
  constructor
  · intro hfair
    cases m with
    | borrow uses =>
      intro huses hborrowed howned
      have hused := hfair.used (congrArg Move.borrow huses)
      simpa [SharedKey.step, h.down, hborrowed, howned] using hused
    | giveBack =>
      intro hborrowed
      by_contra howned
      have hnot := hfair.kept rfl (by simpa using howned)
      exact Bool.false_ne_true.symm (hborrowed.symm.trans hnot)
    | _ => trivial
  · intro hm
    refine ⟨?_, ?_, (h.step hm).owners⟩
    · rintro rfl
      have hm := hm rfl
      simp only [SharedKey.step, h.down]
      cases hborrowed : s.borrowed <;> cases howned : s.owned <;> simp_all
    · rintro rfl howned
      cases hborrowed : s.borrowed with
      | false => rfl
      | true => exact absurd (howned.symm.trans (hm hborrowed)) Bool.false_ne_true.symm

end SharedKey

end TheKvm

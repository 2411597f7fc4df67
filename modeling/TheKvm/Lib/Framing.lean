import Mathlib.Data.List.Infix
import Mathlib.Tactic.Common

/-!
A stream of frames, read piece by piece.

The bytes of a lane are on the wire, arrived, or taken by a read that is not done yet. A read
that is given up takes its bytes along.
-/

namespace TheKvm.Framing

variable {β μ : Type*}

/-- One direction of a stream, as its reader has it. -/
structure Lane (β μ : Type*) where
  wire : List β
  buffered : List β
  taken : List β
  handled : List μ

namespace Lane

/-- The next bytes arrive. -/
def arrive (l : Lane β μ) (n : ℕ) : Lane β μ :=
  { l with wire := l.wire.drop n, buffered := l.buffered ++ l.wire.take n }

/-- A read takes what there is, and is not done. -/
def pend (l : Lane β μ) : Lane β μ :=
  { l with taken := l.taken ++ l.buffered, buffered := [] }

/-- Bytes are written. -/
def send (l : Lane β μ) (bytes : List β) : Lane β μ := { l with wire := l.wire ++ bytes }

/-- A read is given up. -/
def giveUp (l : Lane β μ) : Lane β μ := { l with taken := [] }

/-- A read is done, with a message or not, and leaves the bytes after it. -/
def finishRead (l : Lane β μ) (message : Option μ) (rest : List β) : Lane β μ :=
  { l with buffered := rest, taken := [], handled := l.handled ++ message.toList }

/-- What no read has brought home. -/
def unread (l : Lane β μ) : List β := l.taken ++ (l.buffered ++ l.wire)

/-- What is unread are the frames of the messages that were written and not handled. -/
def InStep (frame : μ → List β) (written : List μ) (l : Lane β μ) : Prop :=
  ∃ rest, written = l.handled ++ rest ∧ l.unread = rest.flatMap frame

variable {frame : μ → List β} {written : List μ} {l : Lane β μ} {m : μ}

lemma InStep.inOrder (h : InStep frame written l) : l.handled <+: written := by
  obtain ⟨rest, rfl, -⟩ := h
  exact List.prefix_append _ _

lemma InStep.arrive (h : InStep frame written l) (n : ℕ) : InStep frame written (l.arrive n) := by
  obtain ⟨rest, hwritten, hunread⟩ := h
  refine ⟨rest, hwritten, ?_⟩
  rw [← hunread, unread, unread, Lane.arrive]
  simp only [List.append_assoc, List.take_append_drop]

lemma InStep.pend (h : InStep frame written l) : InStep frame written l.pend := by
  obtain ⟨rest, hwritten, hunread⟩ := h
  refine ⟨rest, hwritten, ?_⟩
  rw [← hunread, unread, unread, Lane.pend]
  simp only [List.append_assoc, List.nil_append]

/-- The frame of one message more is written. -/
lemma InStep.send (h : InStep frame written l) (m : μ) :
    InStep frame (written ++ [m]) (l.send (frame m)) := by
  obtain ⟨rest, hwritten, hunread⟩ := h
  refine ⟨rest ++ [m], ?_, ?_⟩
  · rw [hwritten, List.append_assoc]
    rfl
  · rw [List.flatMap_append, List.flatMap_singleton, ← hunread, unread, unread, Lane.send]
    simp only [List.append_assoc]

/-- A read that had nothing may be given up. -/
lemma InStep.giveUp (h : InStep frame written l) (htaken : l.taken = []) :
    InStep frame written l.giveUp := by
  obtain ⟨rest, hwritten, hunread⟩ := h
  refine ⟨rest, hwritten, ?_⟩
  rw [← hunread, unread, unread, htaken]
  rfl

/-- What a read can find: nothing written, a part of a frame, or a frame. -/
lemma InStep.cases (h : InStep frame written l) :
    l.unread = [] ∨
      (∃ m ∈ written, ∃ part ≠ [], frame m = l.taken ++ l.buffered ++ part ∧ l.wire ≠ []) ∨
      ∃ m ∈ written, ∃ rest, l.taken ++ l.buffered = frame m ++ rest ∧
        InStep frame written (l.finishRead (some m) rest) := by
  obtain ⟨rest, hwritten, hunread⟩ := h
  cases rest with
  | nil => exact Or.inl hunread
  | cons m rest =>
    right
    have hm : m ∈ written := by simp [hwritten]
    have hbytes : l.taken ++ l.buffered ++ l.wire = frame m ++ rest.flatMap frame := by
      rw [List.append_assoc]
      exact hunread
    rcases List.append_eq_append_iff.mp hbytes with ⟨part, hframe, hwire⟩ | ⟨more, htaken, hmore⟩
    · by_cases hpart : part = []
      · right
        subst hpart
        rw [List.append_nil] at hframe
        refine ⟨m, hm, [], by rw [hframe, List.append_nil], rest, ?_, ?_⟩
        · rw [hwritten, finishRead, Option.toList_some, List.append_assoc]
          rfl
        · rw [unread, finishRead, List.nil_append, List.nil_append, hwire, List.nil_append]
      · left
        refine ⟨m, hm, part, hpart, hframe, ?_⟩
        rw [hwire]
        intro hnil
        exact hpart (List.append_eq_nil_iff.mp hnil).1
    · right
      refine ⟨m, hm, more, htaken, rest, ?_, ?_⟩
      · rw [hwritten, finishRead, Option.toList_some, List.append_assoc]
        rfl
      · rw [unread, finishRead, List.nil_append, hmore]

end Lane

end TheKvm.Framing

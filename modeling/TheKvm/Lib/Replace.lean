import Mathlib.Logic.Function.Basic
import Mathlib.Tactic.Common

/-!
Files that are replaced whole.

A writer fills a temporary file of its own, flushes it and renames it. It may fail or be killed
between any two calls to the system, and others write meanwhile; what stands under a name is
always what one writer wrote.
-/

namespace TheKvm.Replace

/-- The permission bits of a file. -/
abbrev Mode := BitVec 9

structure File where
  bytes : List UInt8
  mode : Mode
  deriving DecidableEq

/-- The files under their names, and the temporary ones by their writers. -/
structure Dir (ν : Type*) where
  files : ν → Option File
  temporaries : ℕ → Option File

/-- What is to be written; a restricted file is its owner's from before the first byte. -/
structure Write (ν : Type*) where
  name : ν
  bytes : List UInt8
  restricted : Bool

inductive Stage
  | opening
  | restricting
  /-- so many bytes are in the file -/
  | writing (written : ℕ)
  | syncing
  | replacing
  deriving DecidableEq

/-- What a call to the system comes to: a write takes `count` bytes; where one fails, the
temporary file is taken away if that is `removed`. -/
inductive Outcome
  | ok (count : ℕ)
  | failed (removed : Bool)

inductive Progress
  | going (stage : Stage)
  | done
  | failed
  deriving DecidableEq

def ownerOnly : Mode := 0o600

variable {ν : Type*}

def Dir.setTemporary (d : Dir ν) (writer : ℕ) (file : Option File) : Dir ν :=
  { d with temporaries := Function.update d.temporaries writer file }

variable [DecidableEq ν]

def Dir.setFile (d : Dir ν) (name : ν) (file : Option File) : Dir ν :=
  { d with files := Function.update d.files name file }

/-- One call to the system of a writer. `umask` is the mode a file is created with. -/
def Write.step (w : Write ν) (umask : Mode) (d : Dir ν) (writer : ℕ) (stage : Stage) :
    Outcome → Dir ν × Progress
  | .failed removed => (if removed then d.setTemporary writer none else d, .failed)
  | .ok count =>
    match stage with
    | .opening =>
      (d.setTemporary writer (some ⟨[], umask⟩),
        .going (if w.restricted then .restricting else .writing 0))
    | .restricting => (d.setTemporary writer (some ⟨[], ownerOnly⟩), .going (.writing 0))
    | .writing written =>
      let mode := ((d.temporaries writer).map File.mode).getD umask
      let written := min (written + count) w.bytes.length
      (d.setTemporary writer (some ⟨w.bytes.take written, mode⟩),
        .going (if written = w.bytes.length then .syncing else .writing written))
    | .syncing => (d, .going .replacing)
    | .replacing =>
      ((d.setFile w.name (d.temporaries writer)).setTemporary writer none, .done)

/-- How far the temporary file is. -/
def Write.At (w : Write ν) (d : Dir ν) (writer : ℕ) : Stage → Prop
  | .opening => d.temporaries writer = none
  | .restricting => w.restricted = true ∧ ∃ mode, d.temporaries writer = some ⟨[], mode⟩
  | .writing written => ∃ mode, d.temporaries writer = some ⟨w.bytes.take written, mode⟩ ∧
      (w.restricted = true → mode = ownerOnly)
  | .syncing | .replacing => ∃ mode, d.temporaries writer = some ⟨w.bytes, mode⟩ ∧
      (w.restricted = true → mode = ownerOnly)

section

variable {w : Write ν} {d d' : Dir ν} {writer : ℕ} {stage : Stage} {umask : Mode}
  {outcome : Outcome} {progress : Progress}

omit [DecidableEq ν] in
@[simp] lemma files_setTemporary (d : Dir ν) (writer : ℕ) (file : Option File) :
    (d.setTemporary writer file).files = d.files := rfl

omit [DecidableEq ν] in
@[simp] lemma temporaries_setTemporary_self (d : Dir ν) (writer : ℕ) (file : Option File) :
    (d.setTemporary writer file).temporaries writer = file := Function.update_self ..

omit [DecidableEq ν] in
lemma temporaries_setTemporary_of_ne (d : Dir ν) {writer other : ℕ} (file : Option File)
    (h : other ≠ writer) :
    (d.setTemporary writer file).temporaries other = d.temporaries other :=
  Function.update_of_ne h ..

/-- A writer touches no temporary file but its own. -/
lemma step_temporaries_of_ne {other : ℕ} (h : other ≠ writer) :
    (w.step umask d writer stage outcome).1.temporaries other = d.temporaries other := by
  cases outcome with
  | failed removed =>
    unfold Write.step
    dsimp only
    split_ifs
    · exact temporaries_setTemporary_of_ne _ _ h
    · rfl
  | ok count =>
    cases stage with
    | syncing => rfl
    | replacing => exact temporaries_setTemporary_of_ne _ _ h
    | opening | restricting | writing => exact temporaries_setTemporary_of_ne _ _ h

/-- What a temporary file may show of what is written. -/
def Write.Shows (w : Write ν) (file : File) : Prop :=
  file.bytes <+: w.bytes ∧ (w.restricted = true → file.bytes = [] ∨ file.mode = ownerOnly)

/-- What became of the file by a step. -/
def Write.Becomes (w : Write ν) (d d' : Dir ν) (writer : ℕ) : Progress → Prop
  | .going stage => w.At d' writer stage ∧ d'.files = d.files
  | .done => d'.temporaries writer = none ∧ ∃ mode, (w.restricted = true → mode = ownerOnly) ∧
      d'.files = Function.update d.files w.name (some ⟨w.bytes, mode⟩)
  | .failed => d'.files = d.files

omit [DecidableEq ν] in
/-- Only the writer's own temporary file counts. -/
lemma Write.At.congr (h : w.At d writer stage)
    (hsame : d'.temporaries writer = d.temporaries writer) : w.At d' writer stage := by
  cases stage <;> simpa only [Write.At, hsame] using h

omit [DecidableEq ν] in
lemma Write.At.shows (h : w.At d writer stage) {file : File}
    (hfile : d.temporaries writer = some file) : w.Shows file := by
  cases stage with
  | opening =>
    rw [Write.At, hfile] at h
    cases h
  | restricting =>
    obtain ⟨-, mode, htemporary⟩ := h
    rw [htemporary] at hfile
    obtain rfl := Option.some.inj hfile
    exact ⟨List.nil_prefix, fun _ => Or.inl rfl⟩
  | writing written =>
    obtain ⟨mode, htemporary, hmode⟩ := h
    rw [htemporary] at hfile
    obtain rfl := Option.some.inj hfile
    exact ⟨List.take_prefix _ _, fun hrestricted => Or.inr (hmode hrestricted)⟩
  | syncing | replacing =>
    obtain ⟨mode, htemporary, hmode⟩ := h
    rw [htemporary] at hfile
    obtain rfl := Option.some.inj hfile
    exact ⟨List.prefix_rfl, fun hrestricted => Or.inr (hmode hrestricted)⟩

/-- **A name stands for whole files.** A call leaves the files as they are, or puts all that is
written under its name, and a restricted file is its owner's by then. -/
theorem Write.At.becomes (h : w.At d writer stage) (umask : Mode) (outcome : Outcome) :
    let r := w.step umask d writer stage outcome
    w.Becomes d r.1 writer r.2 := by
  cases outcome with
  | failed removed =>
    unfold Write.step
    dsimp only [Write.Becomes]
    split_ifs <;> rfl
  | ok count =>
    cases stage with
    | opening =>
      unfold Write.step
      dsimp only [Write.Becomes]
      refine ⟨?_, rfl⟩
      split_ifs with hrestricted
      · exact ⟨hrestricted, umask, temporaries_setTemporary_self ..⟩
      · refine ⟨umask, ?_, fun h => absurd h hrestricted⟩
        rw [temporaries_setTemporary_self, List.take_zero]
    | restricting =>
      exact ⟨⟨ownerOnly, temporaries_setTemporary_self .., fun _ => rfl⟩, rfl⟩
    | writing written =>
      obtain ⟨mode, htemporary, hmode⟩ := h
      unfold Write.step
      dsimp only [Write.Becomes]
      rw [htemporary, Option.map_some, Option.getD_some]
      refine ⟨?_, rfl⟩
      split_ifs with hall
      · refine ⟨mode, ?_, hmode⟩
        rw [temporaries_setTemporary_self, hall, List.take_length]
      · exact ⟨mode, temporaries_setTemporary_self .., hmode⟩
    | syncing => exact ⟨h, rfl⟩
    | replacing =>
      obtain ⟨mode, htemporary, hmode⟩ := h
      refine ⟨temporaries_setTemporary_self .., mode, hmode, ?_⟩
      unfold Write.step
      dsimp only
      rw [files_setTemporary, Dir.setFile, htemporary]

/-- A write fails only where a call does. -/
lemma step_failed (h : (w.step umask d writer stage outcome).2 = .failed) :
    ∃ removed, outcome = .failed removed := by
  cases outcome with
  | failed removed => exact ⟨removed, rfl⟩
  | ok count => cases stage <;> cases h

/-- What is left of the temporary file, also by a writer that fails. -/
lemma Write.At.step_shows (h : w.At d writer stage) {file : File}
    (hfile : (w.step umask d writer stage outcome).1.temporaries writer = some file) :
    w.Shows file := by
  have hbecomes := h.becomes umask outcome
  cases outcome with
  | failed removed =>
    unfold Write.step at hfile
    dsimp only at hfile
    split_ifs at hfile
    · rw [temporaries_setTemporary_self] at hfile
      cases hfile
    · exact h.shows hfile
  | ok count =>
    cases stage with
    | replacing =>
      unfold Write.step at hfile
      dsimp only at hfile
      rw [temporaries_setTemporary_self] at hfile
      cases hfile
    | opening | restricting | writing | syncing => exact hbecomes.1.shows hfile

end

end TheKvm.Replace

import Mathlib.Algebra.BigOperators.Group.List.Basic
import Mathlib.Data.List.Induction

/-!
Neighbouring amounts of one kind, added up.

Two lists with the same segments have the same total of each kind that folds and the same items of
the kinds that do not, in the same order.
-/

namespace TheKvm.Coalesce

variable {κ M : Type*} [DecidableEq κ] [AddCommMonoid M] (folds : κ → Bool)

/-- An amount joins the last segment if both are of one kind that folds. The last comes first. -/
def push (segments : List (κ × M)) (item : κ × M) : List (κ × M) :=
  match segments with
  | [] => [item]
  | last :: earlier =>
    if last.1 = item.1 ∧ folds item.1 then (item.1, last.2 + item.2) :: earlier
    else item :: last :: earlier

def segments (l : List (κ × M)) : List (κ × M) := l.foldl (push folds) []

def total (k : κ) (l : List (κ × M)) : M := ((l.filter fun item => item.1 = k).map Prod.snd).sum

/-- The items of the kinds that do not fold. -/
def unfolded (l : List (κ × M)) : List (κ × M) := l.filter fun item => !folds item.1

variable {folds} {k : κ} {a b : M} {s l m : List (κ × M)}

lemma segments_append (l m : List (κ × M)) :
    segments folds (l ++ m) = m.foldl (push folds) (segments folds l) := List.foldl_append

lemma segments_snoc (l : List (κ × M)) (item : κ × M) :
    segments folds (l ++ [item]) = push folds (segments folds l) item := segments_append l [item]

/-! ### A segment in parts -/

lemma push_push (h : folds k = true) :
    push folds (push folds s (k, a)) (k, b) = push folds s (k, a + b) := by
  rcases s with _ | ⟨last, earlier⟩
  · simp [push, h]
  · by_cases hlast : last.1 = k
    · simp [push, h, hlast, add_assoc]
    · simp [push, h, hlast]

/-- Amounts of one kind that folds join one by one as they do at once. -/
lemma foldl_push (h : folds k = true) (hl : ∀ item ∈ l, item.1 = k) :
    l.foldl (push folds) (push folds s (k, a)) =
      push folds s (k, a + (l.map Prod.snd).sum) := by
  induction l generalizing a with
  | nil => simp
  | cons item l ih =>
    obtain rfl : item.1 = k := hl item List.mem_cons_self
    rw [List.foldl_cons, push_push h, ih fun other hother => hl other (.tail _ hother),
      List.map_cons, List.sum_cons, add_assoc]

/-! ### What segments keep -/

lemma total_cons (k : κ) (item : κ × M) (l : List (κ × M)) :
    total k (item :: l) = (if item.1 = k then item.2 else 0) + total k l := by
  by_cases h : item.1 = k <;> simp [total, h]

lemma total_append (k : κ) (l m : List (κ × M)) :
    total k (l ++ m) = total k l + total k m := by
  simp [total, List.filter_append, List.sum_append]

lemma total_push (k : κ) (s : List (κ × M)) (item : κ × M) :
    total k (push folds s item) = total k s + total k [item] := by
  rcases s with _ | ⟨last, earlier⟩
  · simp [push, total]
  · rw [push]
    split_ifs with h
    · rw [total_cons, total_cons, total_cons, h.1]
      split_ifs <;> simp [total, add_comm, add_assoc]
    · rw [total_cons, total_cons, total_cons]
      simp [total, add_comm]

lemma total_segments (k : κ) (l : List (κ × M)) : total k (segments folds l) = total k l := by
  induction l using List.reverseRecOn with
  | nil => rfl
  | append_singleton l item ih => rw [segments_snoc, total_push, ih, total_append]

lemma unfolded_push (s : List (κ × M)) (item : κ × M) :
    unfolded folds (push folds s item) = unfolded folds [item] ++ unfolded folds s := by
  rcases s with _ | ⟨last, earlier⟩
  · simp [push, unfolded]
  · rw [push]
    split_ifs with h
    · simp [unfolded, h.1, h.2]
    · simp only [unfolded, List.filter_cons, List.filter_nil]
      split_ifs <;> rfl

lemma unfolded_segments (l : List (κ × M)) :
    unfolded folds (segments folds l) = (unfolded folds l).reverse := by
  induction l using List.reverseRecOn with
  | nil => rfl
  | append_singleton l item ih =>
    rw [segments_snoc, unfolded_push, ih, unfolded, unfolded, unfolded, List.filter_append,
      List.reverse_append]
    by_cases h : folds item.1 = true <;> simp [h]

/-- Lists of one order of segments have the same totals. -/
lemma total_eq (h : segments folds l = segments folds m) (k : κ) : total k l = total k m :=
  calc total k l = total k (segments folds l) := (total_segments k l).symm
    _ = total k (segments folds m) := by rw [h]
    _ = total k m := total_segments k m

/-- Lists of one order of segments have the same items that do not fold. -/
lemma unfolded_eq (h : segments folds l = segments folds m) :
    unfolded folds l = unfolded folds m := by
  rw [← List.reverse_inj, ← unfolded_segments, h, unfolded_segments]

end TheKvm.Coalesce

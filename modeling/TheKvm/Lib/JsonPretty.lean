import Mathlib.Data.List.Infix
import TheKvm.Lib.Json

/-!
The indented text of a JSON document.

Each item of an array and each field of an object stands on a line of its own, two blanks deeper
than what it belongs to. The key of a field is found in the text of its object.
-/

namespace TheKvm.Json

/-- The start of a line. -/
def newline (depth : ℕ) : List Char := '\n' :: List.replicate (2 * depth) ' '

/-- What stands between two brackets, a line for each item. -/
def block (opening closing : Char) (depth : ℕ) (items : List (List Char)) : List Char :=
  if items = [] then [opening, closing]
  else
    opening :: ([','].intercalate (items.map (newline (depth + 1) ++ ·)) ++
      (newline depth ++ [closing]))

mutual

/-- The indented text of a document. -/
def pretty (depth : ℕ) : Json → List Char
  | null => text null
  | bool b => text (bool b)
  | num n => text (num n)
  | str s => text (str s)
  | arr items => block '[' ']' depth (prettyItems (depth + 1) items)
  | obj fields => block '{' '}' depth (prettyFields (depth + 1) fields)

def prettyItems (depth : ℕ) : List Json → List (List Char)
  | [] => []
  | v :: rest => pretty depth v :: prettyItems depth rest

def prettyFields (depth : ℕ) : List (String × Json) → List (List Char)
  | [] => []
  | (k, v) :: rest => (quoted k ++ (':' :: ' ' :: pretty depth v)) :: prettyFields depth rest

end

lemma mem_prettyFields {depth : ℕ} {fields : List (String × Json)} {k : String} {v : Json}
    (h : (k, v) ∈ fields) :
    quoted k ++ (':' :: ' ' :: pretty depth v) ∈ prettyFields depth fields := by
  induction fields with
  | nil => cases h
  | cons field rest ih =>
    obtain ⟨k', v'⟩ := field
    rw [prettyFields]
    rcases List.mem_cons.mp h with heq | hrest
    · obtain ⟨rfl, rfl⟩ := Prod.mk.inj heq
      exact List.mem_cons_self
    · exact List.mem_cons_of_mem _ (ih hrest)

lemma isInfix_intercalate {α : Type*} (sep : List α) {item : List α} {items : List (List α)}
    (h : item ∈ items) : item <:+: sep.intercalate items := by
  induction items with
  | nil => cases h
  | cons first rest ih =>
    rcases rest with _ | ⟨second, rest⟩
    · rw [List.mem_singleton.mp h, List.intercalate_singleton]
    · rw [List.intercalate_cons_cons]
      rcases List.mem_cons.mp h with rfl | hrest
      · rw [List.append_assoc]
        exact (List.prefix_append _ _).isInfix
      · exact (ih hrest).trans (List.suffix_append _ _).isInfix

lemma isInfix_block {opening closing : Char} {depth : ℕ} {item : List Char}
    {items : List (List Char)} (h : item ∈ items) :
    item <:+: block opening closing depth items := by
  have hne : items ≠ [] := List.ne_nil_of_mem h
  have hline : newline (depth + 1) ++ item ∈ items.map (newline (depth + 1) ++ ·) :=
    List.mem_map_of_mem h
  rw [block, if_neg hne]
  refine (List.suffix_append (newline (depth + 1)) item).isInfix.trans ?_
  refine (isInfix_intercalate [','] hline).trans ?_
  exact (List.prefix_append _ _).isInfix.trans (List.suffix_cons _ _).isInfix

/-- The key of a field is found in the text of the object. -/
theorem quoted_isInfix_pretty {depth : ℕ} {fields : List (String × Json)} {k : String} {v : Json}
    (h : (k, v) ∈ fields) : quoted k <:+: pretty depth (obj fields) := by
  rw [pretty]
  exact (List.prefix_append _ _).isInfix.trans (isInfix_block (mem_prettyFields h))

end TheKvm.Json

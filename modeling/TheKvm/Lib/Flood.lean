import Mathlib.Data.List.Nodup
import Mathlib.Data.List.Perm.Subperm
import Mathlib.Logic.Function.Iterate
import Mathlib.Logic.Relation

/-!
Flood fill: the parts that a set of cells falls into.

A sweep goes over all cells. From each that is in the set and was not seen before, a queue
takes in whatever neighbours lead to. If neighbourhood goes both ways, the parts found this way
are the classes of cells that neighbours join, each found once and from its first cell.
-/

namespace TheKvm

/-- A fill under way: what was seen, what waits, and what was taken off the queue. -/
structure Flood (α : Type*) where
  seen : α → Bool
  queue : List α
  taken : List α

namespace Flood

variable {α : Type*}

/-- Cells that neighbours lead to. -/
def Joined (neighbours : α → List α) : α → α → Prop :=
  Relation.ReflTransGen fun a b => b ∈ neighbours a

/-- Neighbourhood goes both ways and keeps within the set, and the set is among the cells. -/
structure Mutual (neighbours : α → List α) (mask : α → Bool) (cells : List α) : Prop where
  back : ∀ a b, mask a = true → b ∈ neighbours a → mask b = true ∧ a ∈ neighbours b
  listed : ∀ a, mask a = true → a ∈ cells

variable {neighbours : α → List α} {mask seen : α → Bool} {cells : List α} {start : α}

lemma Mutual.joined (hm : Mutual neighbours mask cells) {a b : α} (ha : mask a = true)
    (h : Joined neighbours a b) : mask b = true ∧ Joined neighbours b a := by
  induction h with
  | refl => exact ⟨ha, Relation.ReflTransGen.refl⟩
  | tail _ hstep ih =>
    obtain ⟨hb, hback⟩ := hm.back _ _ ih.1 hstep
    exact ⟨hb, ih.2.head hback⟩

/-- The parts of a set, by the order of the cells. -/
structure Parts (neighbours : α → List α) (mask : α → Bool) (before : α → α → Prop)
    (parts : List (List α)) : Prop where
  once : parts.flatten.Nodup
  covers : ∀ a, a ∈ parts.flatten ↔ mask a = true
  joined : ∀ p ∈ parts, ∀ a ∈ p, ∀ b, b ∈ p ↔ Joined neighbours a b
  first : ∀ p ∈ parts, ∃ a ∈ p.head?, ∀ b ∈ p, b = a ∨ before a b
  ordered : parts.Pairwise fun p q => ∀ a ∈ p.head?, ∀ b ∈ q.head?, before a b

variable [DecidableEq α]

/-- A neighbour waits if it was not seen. -/
def mark (s : Flood α) (a : α) : Flood α :=
  if s.seen a then s
  else { s with seen := Function.update s.seen a true, queue := s.queue ++ [a] }

/-- The first that waits is taken off and its neighbours are marked. -/
def visit (neighbours : α → List α) (s : Flood α) : Flood α :=
  match s.queue with
  | [] => s
  | cur :: rest =>
    (neighbours cur).foldl mark { s with queue := rest, taken := s.taken ++ [cur] }

/-- The fill from a cell on, of so many visits. -/
def fill (neighbours : α → List α) (visits : ℕ) (seen : α → Bool) (start : α) : Flood α :=
  (visit neighbours)^[visits] ⟨Function.update seen start true, [start], []⟩

/-- The parts of the set, in the order in which the sweep finds them. -/
def sweep (neighbours : α → List α) (visits : ℕ) (mask : α → Bool) :
    List α → (α → Bool) → List (List α)
  | [], _ => []
  | a :: rest, seen =>
    if !mask a || seen a then sweep neighbours visits mask rest seen
    else
      let filled := fill neighbours visits seen a
      filled.taken :: sweep neighbours visits mask rest filled.seen

variable {s : Flood α}

/-! ### One visit -/

/-- Of the neighbours those not seen before are added to the queue, each once. -/
lemma foldl_mark (l : List α) (s : Flood α) :
    ∃ new : List α, new.Nodup ∧ (∀ a, a ∈ new ↔ a ∈ l ∧ s.seen a = false) ∧
      (l.foldl mark s).queue = s.queue ++ new ∧ (l.foldl mark s).taken = s.taken ∧
        ∀ a, (l.foldl mark s).seen a = true ↔ s.seen a = true ∨ a ∈ l := by
  induction l generalizing s with
  | nil => exact ⟨[], List.nodup_nil, by simp, by simp, rfl, by simp⟩
  | cons b l ih =>
    obtain ⟨new, hnodup, hnew, hqueue, htaken, hseen⟩ := ih (mark s b)
    rw [List.foldl_cons]
    by_cases hb : s.seen b = true
    · have hmark : mark s b = s := if_pos hb
      rw [hmark] at hnew hqueue htaken hseen ⊢
      refine ⟨new, hnodup, fun a => ?_, hqueue, htaken, fun a => ?_⟩
      · rw [hnew, List.mem_cons]
        constructor
        · exact fun ⟨hl, hs⟩ => ⟨Or.inr hl, hs⟩
        · rintro ⟨rfl | hl, hs⟩
          · rw [hb] at hs
            cases hs
          · exact ⟨hl, hs⟩
      · rw [hseen, List.mem_cons]
        constructor
        · exact fun h => h.imp_right Or.inr
        · rintro (hs | rfl | hl)
          · exact Or.inl hs
          · exact Or.inl hb
          · exact Or.inr hl
    · have hmark : mark s b =
          { s with seen := Function.update s.seen b true, queue := s.queue ++ [b] } := if_neg hb
      have hupdate (a : α) : (mark s b).seen a = true ↔ a = b ∨ s.seen a = true := by
        rw [hmark]
        by_cases h : a = b
        · simp [h]
        · simp [h]
      have hfresh (a : α) : (mark s b).seen a = false ↔ a ≠ b ∧ s.seen a = false := by
        rw [← Bool.not_eq_true, hupdate, not_or, Bool.not_eq_true]
      have hwaits : (mark s b).queue = s.queue ++ [b] := by rw [hmark]
      have hkept : (mark s b).taken = s.taken := by rw [hmark]
      rw [hwaits, List.append_assoc, List.singleton_append] at hqueue
      rw [hkept] at htaken
      refine ⟨b :: new, ?_, fun a => ?_, hqueue, htaken, fun a => ?_⟩
      · refine List.nodup_cons.mpr ⟨fun hmem => ?_, hnodup⟩
        rw [hnew, hfresh] at hmem
        exact hmem.2.1 rfl
      · rw [List.mem_cons, List.mem_cons, hnew, hfresh]
        rw [Bool.not_eq_true] at hb
        constructor
        · rintro (rfl | ⟨hl, -, hs⟩)
          · exact ⟨Or.inl rfl, hb⟩
          · exact ⟨Or.inr hl, hs⟩
        · rintro ⟨rfl | hl, hs⟩
          · exact Or.inl rfl
          · by_cases hab : a = b
            · exact Or.inl hab
            · exact Or.inr ⟨hl, hab, hs⟩
      · rw [hseen, hupdate, List.mem_cons]
        constructor
        · rintro ((rfl | hs) | hl)
          · exact Or.inr (Or.inl rfl)
          · exact Or.inl hs
          · exact Or.inr (Or.inr hl)
        · rintro (hs | rfl | hl)
          · exact Or.inl (Or.inr hs)
          · exact Or.inl (Or.inl rfl)
          · exact Or.inr hl

/-- What holds of a fill that began at a cell with something seen already. -/
structure Spreads (neighbours : α → List α) (seen : α → Bool) (start : α) (s : Flood α) :
    Prop where
  known : ∀ a, s.seen a = true ↔ seen a = true ∨ a ∈ s.taken ++ s.queue
  fresh : ∀ a ∈ s.taken ++ s.queue, seen a = false
  once : (s.taken ++ s.queue).Nodup
  joined : ∀ a ∈ s.taken ++ s.queue, Joined neighbours start a
  passed : ∀ a ∈ s.taken, ∀ b ∈ neighbours a, s.seen b = true
  first : (s.taken ++ s.queue).head? = some start

lemma Spreads.begin (neighbours : α → List α) (h : seen start = false) :
    Spreads neighbours seen start ⟨Function.update seen start true, [start], []⟩ where
  known a := by
    by_cases ha : a = start
    · simp [ha]
    · simp [ha]
  fresh a ha := by
    rw [List.nil_append, List.mem_singleton] at ha
    rw [ha, h]
  once := List.nodup_singleton start
  joined a ha := by
    rw [List.nil_append, List.mem_singleton] at ha
    rw [ha]
    exact Relation.ReflTransGen.refl
  passed a ha := absurd ha List.not_mem_nil
  first := rfl

lemma Spreads.visit (h : Spreads neighbours seen start s) :
    Spreads neighbours seen start (visit neighbours s) := by
  unfold Flood.visit
  split
  · exact h
  · rename_i cur rest hqueue
    obtain ⟨new, hnodup, hnew, hwaits, htaken, hseen⟩ :=
      foldl_mark (neighbours cur) { s with queue := rest, taken := s.taken ++ [cur] }
    generalize (neighbours cur).foldl mark _ = t at hwaits htaken hseen ⊢
    have hall : t.taken ++ t.queue = (s.taken ++ s.queue) ++ new := by
      rw [htaken, hwaits, hqueue]
      simp
    have hunseen : ∀ a ∈ new, seen a = false ∧ a ∉ s.taken ++ s.queue := by
      intro a ha
      have hfalse : s.seen a = false := ((hnew a).mp ha).2
      rw [← Bool.not_eq_true, h.known, not_or, Bool.not_eq_true] at hfalse
      exact hfalse
    have hcur : cur ∈ s.taken ++ s.queue := by
      rw [hqueue]
      simp
    constructor
    · intro a
      rw [hseen, hall, List.mem_append, hnew]
      show s.seen a = true ∨ _ ↔ _ ∨ _ ∨ _ ∧ s.seen a = false
      rw [h.known]
      cases hs : s.seen a with
      | true =>
        rw [h.known] at hs
        tauto
      | false => tauto
    · intro a ha
      rw [hall, List.mem_append] at ha
      exact ha.elim (h.fresh a) fun ha => (hunseen a ha).1
    · rw [hall, List.nodup_append']
      exact ⟨h.once, hnodup, fun a ha hnew => (hunseen a hnew).2 ha⟩
    · intro a ha
      rw [hall, List.mem_append] at ha
      refine ha.elim (h.joined a) fun ha => ?_
      exact (h.joined cur hcur).tail ((hnew a).mp ha).1
    · intro a ha b hb
      rw [htaken, List.mem_append, List.mem_singleton] at ha
      rw [hseen]
      rcases ha with ha | rfl
      · exact Or.inl (h.passed a ha b hb)
      · exact Or.inr hb
    · rw [hall, List.head?_append, h.first]
      rfl

/-! ### The whole fill -/

lemma Spreads.iterate (h : Spreads neighbours seen start s) (n : ℕ) :
    Spreads neighbours seen start ((Flood.visit neighbours)^[n] s) := by
  induction n generalizing s with
  | zero => exact h
  | succ n ih =>
    rw [Function.iterate_succ_apply]
    exact ih h.visit

/-- Each visit takes a cell off, until none waits. -/
lemma taken_iterate (neighbours : α → List α) (n : ℕ) (s : Flood α) :
    ((Flood.visit neighbours)^[n] s).queue = [] ∨
      ((Flood.visit neighbours)^[n] s).taken.length = s.taken.length + n := by
  induction n with
  | zero => exact Or.inr rfl
  | succ n ih =>
    rw [Function.iterate_succ_apply']
    generalize (Flood.visit neighbours)^[n] s = t at ih
    unfold Flood.visit
    split
    · exact Or.inl ‹_›
    · rename_i cur rest hqueue
      obtain ⟨new, -, -, -, htaken, -⟩ :=
        foldl_mark (neighbours cur) { t with queue := rest, taken := t.taken ++ [cur] }
      rw [hqueue] at ih
      refine ih.elim (fun h => absurd h (List.cons_ne_nil _ _)) fun hlen => Or.inr ?_
      rw [htaken, List.length_append, hlen]
      rfl

/-- **One part.** The fill takes off each cell that is joined to its start once, and sees those
besides what was seen before. -/
lemma fill_spec (hm : Mutual neighbours mask cells) (hstart : mask start = true)
    (hnew : seen start = false)
    (hclosed : ∀ a b, mask a = true → seen a = true → b ∈ neighbours a → seen b = true) :
    (fill neighbours cells.length seen start).taken.Nodup ∧
      (fill neighbours cells.length seen start).taken.head? = some start ∧
      (∀ a, a ∈ (fill neighbours cells.length seen start).taken ↔ Joined neighbours start a) ∧
      ∀ a, (fill neighbours cells.length seen start).seen a = true ↔
        seen a = true ∨ Joined neighbours start a := by
  have h := (Spreads.begin neighbours hnew).iterate cells.length
  have hlen := taken_iterate neighbours cells.length
    ⟨Function.update seen start true, [start], []⟩
  rw [← fill] at h hlen
  generalize fill neighbours cells.length seen start = s at h hlen
  have hempty : s.queue = [] := by
    refine hlen.elim id fun hlen => ?_
    have hsub : s.taken ++ s.queue ⊆ cells :=
      fun a ha => hm.listed a (hm.joined hstart (h.joined a ha)).1
    have hle := (h.once.subperm hsub).length_le
    rw [List.length_append, hlen, List.length_nil] at hle
    exact List.length_eq_zero_iff.mp (by omega)
  have hknown := h.known
  have hfirst := h.first
  have honce := h.once
  have hreached := h.joined
  have hfresh := h.fresh
  rw [hempty, List.append_nil] at hknown hfirst honce hreached hfresh
  have hmem (a : α) : a ∈ s.taken ↔ Joined neighbours start a := by
    refine ⟨hreached a, fun hjoined => ?_⟩
    induction hjoined with
    | refl => exact List.mem_of_head? hfirst
    | tail hto hstep ih =>
      -- what was seen before is closed, so the fill never runs into it
      rename_i b c
      obtain ⟨hc, hback⟩ := hm.back _ _ (hm.joined hstart hto).1 hstep
      refine ((hknown c).mp (h.passed b ih c hstep)).resolve_left fun hold => ?_
      have := hclosed c b hc hold hback
      rw [hfresh b ih] at this
      cases this
  exact ⟨honce, hfirst, hmem, fun a => by rw [hknown, hmem]⟩

/-! ### The sweep -/

/-- What the sweep finds among the cells left over. -/
lemma sweep_spec (seen : α → Bool) (hm : Mutual neighbours mask cells) {before : α → α → Prop} {rest : List α}
    (hrest : rest.Pairwise before)
    (hclosed : ∀ a b, mask a = true → seen a = true → b ∈ neighbours a → seen b = true)
    (hleft : ∀ a, mask a = true → seen a = true ∨ a ∈ rest) :
    (sweep neighbours cells.length mask rest seen).flatten.Nodup ∧
      (∀ a, a ∈ (sweep neighbours cells.length mask rest seen).flatten ↔
        mask a = true ∧ seen a = false) ∧
      (∀ p ∈ sweep neighbours cells.length mask rest seen, ∃ a ∈ p.head?, a ∈ rest ∧
        mask a = true ∧ (∀ b, b ∈ p ↔ Joined neighbours a b) ∧ ∀ b ∈ p, b = a ∨ before a b) ∧
      (sweep neighbours cells.length mask rest seen).Pairwise
        fun p q => ∀ a ∈ p.head?, ∀ b ∈ q.head?, before a b := by
  induction rest generalizing seen with
  | nil =>
    refine ⟨List.nodup_nil, fun a => ?_, fun p hp => absurd hp List.not_mem_nil,
      List.Pairwise.nil⟩
    refine ⟨fun h => absurd h List.not_mem_nil, fun ⟨ha, hs⟩ => ?_⟩
    rcases hleft a ha with h | h
    · rw [hs] at h
      cases h
    · exact h
  | cons c rest ih =>
    obtain ⟨hc, hrest⟩ := List.pairwise_cons.mp hrest
    by_cases hskip : (!mask c || seen c) = true
    · have hleft' : ∀ a, mask a = true → seen a = true ∨ a ∈ rest := by
        intro a ha
        rcases hleft a ha with h | h
        · exact Or.inl h
        · rcases List.mem_cons.mp h with rfl | h
          · rw [ha] at hskip
            exact Or.inl (by simpa using hskip)
          · exact Or.inr h
      obtain ⟨honce, hcovers, hparts, hordered⟩ := ih seen hrest hclosed hleft'
      rw [sweep, if_pos hskip]
      refine ⟨honce, hcovers, fun p hp => ?_, hordered⟩
      obtain ⟨a, ha, hmem, h⟩ := hparts p hp
      exact ⟨a, ha, List.mem_cons_of_mem _ hmem, h⟩
    · rw [sweep, if_neg hskip]
      simp only [Bool.or_eq_true, Bool.not_eq_true', not_or, Bool.not_eq_true,
        Bool.not_eq_false] at hskip
      obtain ⟨hmask, hnew⟩ := hskip
      obtain ⟨hnodup, hhead, hmem, hseen⟩ := fill_spec hm hmask hnew hclosed
      generalize fill neighbours cells.length seen c = s at hnodup hhead hmem hseen
      have hclosed' : ∀ a b, mask a = true → s.seen a = true → b ∈ neighbours a →
          s.seen b = true := by
        intro a b ha hs hb
        rw [hseen] at hs ⊢
        exact hs.imp (fun hs => hclosed a b ha hs hb) fun hj => hj.tail hb
      have hleft' : ∀ a, mask a = true → s.seen a = true ∨ a ∈ rest := by
        intro a ha
        rw [hseen]
        rcases hleft a ha with h | h
        · exact Or.inl (Or.inl h)
        · rcases List.mem_cons.mp h with rfl | h
          · exact Or.inl (Or.inr Relation.ReflTransGen.refl)
          · exact Or.inr h
      have hjoinedNew {a : α} (h : Joined neighbours c a) : seen a = false := by
        induction h with
        | refl => exact hnew
        | tail hto hstep ih =>
          rename_i a b
          obtain ⟨hb, hback⟩ := hm.back _ _ (hm.joined hmask hto).1 hstep
          by_contra hs
          rw [hclosed b a hb (by simpa using hs) hback] at ih
          cases ih
      obtain ⟨honce, hcovers, hparts, hordered⟩ := ih s.seen hrest hclosed' hleft'
      refine ⟨?_, fun a => ?_, ?_, ?_⟩
      · rw [List.flatten_cons, List.nodup_append']
        refine ⟨hnodup, honce, fun a ha hlater => ?_⟩
        have hs := ((hcovers a).mp hlater).2
        rw [(hseen a).mpr (Or.inr ((hmem a).mp ha))] at hs
        cases hs
      · rw [List.flatten_cons, List.mem_append, hmem, hcovers, ← Bool.not_eq_true (s.seen a),
          hseen, not_or, Bool.not_eq_true]
        constructor
        · rintro (hj | ⟨ha, hs, -⟩)
          · exact ⟨(hm.joined hmask hj).1, hjoinedNew hj⟩
          · exact ⟨ha, hs⟩
        · rintro ⟨ha, hs⟩
          by_cases hj : Joined neighbours c a
          · exact Or.inl hj
          · exact Or.inr ⟨ha, hs, hj⟩
      · intro p hp
        rcases List.mem_cons.mp hp with rfl | hp
        · refine ⟨c, hhead, List.mem_cons_self, hmask, hmem, fun b hb => ?_⟩
          have hj := (hmem b).mp hb
          rcases hleft b (hm.joined hmask hj).1 with h | h
          · rw [hjoinedNew hj] at h
            cases h
          · exact (List.mem_cons.mp h).imp_right (hc b)
        · obtain ⟨a, ha, hin, h⟩ := hparts p hp
          exact ⟨a, ha, List.mem_cons_of_mem _ hin, h⟩
      · refine List.pairwise_cons.mpr ⟨fun q hq a ha b hb => ?_, hordered⟩
        rw [hhead] at ha
        cases ha
        obtain ⟨d, hd, hin, -⟩ := hparts q hq
        have hbd : b = d := Option.mem_unique hb hd
        rw [hbd]
        exact hc d hin

/-- **The sweep finds the parts.** If neighbourhood goes both ways, a sweep over all cells that
allows as many visits as there are cells finds each class of joined cells once, from its first
cell, in the order of these. -/
theorem parts_sweep (hm : Mutual neighbours mask cells) {before : α → α → Prop}
    (hcells : cells.Pairwise before) :
    Parts neighbours mask before
      (sweep neighbours cells.length mask cells fun _ => false) := by
  obtain ⟨honce, hcovers, hparts, hordered⟩ := sweep_spec (fun _ => false) hm hcells
    (fun _ _ _ h => absurd h Bool.false_ne_true) fun a ha => Or.inr (hm.listed a ha)
  refine ⟨honce, fun a => by rw [hcovers]; exact and_iff_left rfl, fun p hp a ha b => ?_,
    fun p hp => ?_, hordered⟩
  · obtain ⟨c, -, -, hmask, hmem, -⟩ := hparts p hp
    have hca := (hmem a).mp ha
    have hac := (hm.joined hmask hca).2
    rw [hmem]
    exact ⟨fun hcb => hac.trans hcb, fun hab => hca.trans hab⟩
  · obtain ⟨c, hc, -, -, -, hfirst⟩ := hparts p hp
    exact ⟨c, hc, hfirst⟩

end Flood

end TheKvm

import Mathlib.Data.List.Induction
import Mathlib.Data.List.Sort
import Mathlib.Tactic.Ring
import TheKvm.Lib.Flood

/-!
The text detector, from the map of probabilities to the boxes of text.

The map is cut to its part that is no padding, what is above the threshold is dilated by one
cell, and the cells that hang together are gathered into candidates. The arithmetic on
probabilities and pixels is left to the caller: what is above the threshold, and the box that
a candidate is worth.
-/

namespace TheKvm.Detect

variable {α σ : Type*}

/-! ### The map -/

/-- The cells of the map that are no padding, as above the threshold or not. The map has rows of
`ow` cells, `mw` of them valid. -/
def maskOf (above : α → Bool) (out : List α) (ow mw mh : ℕ) : List Bool :=
  ((out.take (mh * ow)).zipIdx.filter fun (_, i) => i % ow < mw).map fun (v, _) => above v

/-- A cell of the window around a cell is set. -/
def touches (mw mh : ℕ) (dil : List Bool) (x y : ℕ) : Bool :=
  [-1, 0, 1].any fun dy : ℤ => [-1, 0, 1].any fun dx : ℤ =>
    decide (0 ≤ x + dx) && decide (0 ≤ y + dy) && decide ((x + dx).toNat < mw) &&
      decide ((y + dy).toNat < mh) && dil.getD ((y + dy).toNat * mw + (x + dx).toNat) false

/-- One cell of a dilation. -/
def dilateCell (mw mh : ℕ) (dil next : List Bool) (x y : ℕ) : List Bool :=
  if dil.getD (y * mw + x) false then next
  else if touches mw mh dil x y then next.set (y * mw + x) true
  else next

/-- One dilation. -/
def dilate (mw mh : ℕ) (dil : List Bool) : List Bool :=
  (List.range mh).foldl (fun next y =>
    (List.range mw).foldl (fun next x => dilateCell mw mh dil next x y) next) dil

/-- `wrapping_sub(1)` of a `usize`. -/
def wrappingPred (n : ℕ) : ℕ := (n + (2 ^ 64 - 1)) % 2 ^ 64

/-- The set cells beside a cell. -/
def neighbours (mw mh : ℕ) (mask : List Bool) (cur : ℕ) : List ℕ :=
  ([(wrappingPred (cur % mw), cur / mw), (cur % mw + 1, cur / mw),
      (cur % mw, wrappingPred (cur / mw)), (cur % mw, cur / mw + 1)].filter fun (nx, ny) =>
    decide (nx < mw) && decide (ny < mh) && mask.getD (ny * mw + nx) false).map
      fun (nx, ny) => ny * mw + nx

/-- The components, each in the order in which its cells are taken off the queue. -/
def components (mw mh : ℕ) (mask : List Bool) : List (List ℕ) :=
  Flood.sweep (neighbours mw mh mask) (mh * mw) (fun i => mask.getD i false)
    (List.range (mh * mw)) fun _ => false

/-! ### Candidates -/

/-- A component: the cells it spans, and the probabilities that are summed up. -/
structure Candidate (α : Type*) where
  x0 : ℕ
  y0 : ℕ
  x1 : ℕ
  y1 : ℕ
  values : List α
  deriving DecidableEq

/-- One more cell. The map is read with its own stride. -/
def Candidate.grow (out : List α) (ow mw : ℕ) (c : Candidate α) (cur : ℕ) : Candidate α where
  x0 := min c.x0 (cur % mw)
  y0 := min c.y0 (cur / mw)
  x1 := max c.x1 (cur % mw)
  y1 := max c.y1 (cur / mw)
  values := c.values ++ out[cur / mw * ow + cur % mw]?.toList

def candidate (out : List α) (ow mw mh : ℕ) (component : List ℕ) : Candidate α :=
  component.foldl (Candidate.grow out ow mw) ⟨mw, mh, 0, 0, []⟩

/-- The components of nine cells or more. -/
def candidates (above : α → Bool) (out : List α) (ow mw mh : ℕ) : List (Candidate α) :=
  ((components mw mh (dilate mw mh (maskOf above out ow mw mh))).map
    (candidate out ow mw mh)).filter fun c => 9 ≤ c.values.length

/-- A box of text, with its score. -/
structure TextBox (σ : Type*) where
  x : ℕ
  y : ℕ
  w : ℕ
  h : ℕ
  score : σ

/-- Top to bottom by tens of pixels, left to right. -/
def readsBefore (a b : TextBox σ) : Bool :=
  decide (a.y / 10 < b.y / 10) || (a.y / 10 == b.y / 10 && decide (a.x ≤ b.x))

/-- The boxes of the candidates that are worth one, in reading order, at most 200. -/
def detect (above : α → Bool) (toBox : Candidate α → Option (TextBox σ)) (out : List α)
    (ow mw mh : ℕ) : List (TextBox σ) :=
  (((candidates above out ow mw mh).filterMap toBox).mergeSort readsBefore).take 200

/-! ### Cells by column and row -/

/-- The column and the row of a cell. -/
def place (mw cur : ℕ) : ℕ × ℕ := (cur % mw, cur / mw)

section Cells

variable {mw mh x y cur : ℕ}

lemma place_index (hx : x < mw) : place mw (y * mw + x) = (x, y) := by
  have hpos : 0 < mw := by omega
  rw [place, Nat.mul_add_mod_of_lt hx, Nat.mul_comm, Nat.mul_add_div hpos,
    Nat.div_eq_of_lt hx, Nat.add_zero]

lemma index_place (mw cur : ℕ) : (place mw cur).2 * mw + (place mw cur).1 = cur :=
  Nat.div_add_mod' cur mw

lemma place_injective (mw : ℕ) : Function.Injective (place mw) := by
  intro a b h
  rw [← index_place mw a, h, index_place]

lemma index_lt (hx : x < mw) (hy : y < mh) : y * mw + x < mh * mw := by
  have hrow : (y + 1) * mw ≤ mh * mw := Nat.mul_le_mul_right mw hy
  rw [Nat.add_mul, Nat.one_mul] at hrow
  omega

lemma place_lt (h : cur < mh * mw) : (place mw cur).1 < mw ∧ (place mw cur).2 < mh := by
  have hpos : 0 < mw := by
    by_contra hzero
    have hmw : mw = 0 := by omega
    rw [hmw, Nat.mul_zero] at h
    omega
  exact ⟨Nat.mod_lt _ hpos, Nat.div_lt_of_lt_mul (by rwa [Nat.mul_comm])⟩

/-! ### The mask -/

/-- A row of the map, as far as it is valid. -/
lemma filter_row (out : List α) (ow mw k : ℕ) (hlen : out.length ≤ ow) :
    ((out.zipIdx (k * ow)).filter fun (_, i) => decide (i % ow < mw)).map Prod.fst =
      out.take mw := by
  have hpart : ∀ (row : List α) (j : ℕ), j + row.length ≤ ow →
      ((row.zipIdx (k * ow + j)).filter fun (_, i) => decide (i % ow < mw)).map Prod.fst =
        row.take (mw - j) := by
    intro row
    induction row with
    | nil => exact fun j _ => by simp
    | cons v row ih =>
      intro j hj
      rw [List.length_cons] at hj
      have hmod : (k * ow + j) % ow = j := Nat.mul_add_mod_of_lt (by omega)
      rw [List.zipIdx_cons, List.filter_cons, Nat.add_assoc]
      simp only [hmod, decide_eq_true_eq]
      split_ifs with hlt
      · obtain ⟨n, hn⟩ : ∃ n, mw - j = n + 1 := ⟨mw - j - 1, by omega⟩
        rw [List.map_cons, ih (j + 1) (by omega), hn, List.take_succ_cons,
          show mw - (j + 1) = n by omega]
      · rw [ih (j + 1) (by omega), show mw - (j + 1) = 0 by omega, show mw - j = 0 by omega,
          List.take_zero, List.take_zero]
  have h := hpart out 0 (by omega)
  rwa [Nat.add_zero, Nat.sub_zero] at h

/-- A further row. -/
lemma maskOf_succ (above : α → Bool) {out : List α} {ow : ℕ} (hle : mw ≤ ow) (k : ℕ)
    (hlen : (k + 1) * ow ≤ out.length) :
    maskOf above out ow mw (k + 1) =
      maskOf above out ow mw k ++ ((out.drop (k * ow)).take mw).map above := by
  have hsplit : out.take ((k + 1) * ow) = out.take (k * ow) ++ (out.drop (k * ow)).take ow := by
    rw [Nat.add_mul, Nat.one_mul, List.take_add]
  have hrows : (out.take (k * ow)).length = k * ow := by
    rw [List.length_take]
    rw [Nat.add_mul] at hlen
    omega
  have hrow := filter_row ((out.drop (k * ow)).take ow) ow mw k (by simp)
  rw [List.take_take, Nat.min_eq_left hle] at hrow
  have hmap (l : List (α × ℕ)) :
      (l.map fun (v, _) => above v) = (l.map Prod.fst).map above := by
    rw [List.map_map]
    rfl
  rw [maskOf, hsplit, List.zipIdx_append, hrows, Nat.zero_add, List.filter_append,
    List.map_append, hmap (List.filter _ ((List.take ow _).zipIdx _)), hrow]
  rfl

/-- The mask has a row of `mw` cells for each row of the map. -/
lemma maskOf_spec (above : α → Bool) {out : List α} {ow : ℕ} (hle : mw ≤ ow)
    (hlen : mh * ow ≤ out.length) :
    (maskOf above out ow mw mh).length = mh * mw ∧
      ∀ x y, x < mw → y < mh →
        (maskOf above out ow mw mh)[y * mw + x]? = out[y * ow + x]?.map above := by
  induction mh with
  | zero =>
    refine ⟨?_, fun x y _ hy => absurd hy (Nat.not_lt_zero y)⟩
    rw [maskOf, Nat.zero_mul, List.take_zero]
    simp
  | succ k ih =>
    have hk : (k + 1) * ow = k * ow + ow := by rw [Nat.add_mul, Nat.one_mul]
    have hkw : (k + 1) * mw = k * mw + mw := by rw [Nat.add_mul, Nat.one_mul]
    obtain ⟨hrows, hcells⟩ := ih (by omega)
    rw [maskOf_succ above hle k hlen]
    constructor
    · rw [List.length_append, hrows, List.length_map, List.length_take, List.length_drop]
      omega
    · intro x y hx hy
      rcases Nat.lt_or_ge y k with hlt | hge
      · rw [List.getElem?_append_left, hcells x y hx hlt]
        rw [hrows]
        exact index_lt hx hlt
      · have hyk : y = k := by omega
        rw [hyk, List.getElem?_append_right (by rw [hrows]; omega), hrows,
          Nat.add_sub_cancel_left, List.getElem?_map, List.getElem?_take_of_lt hx,
          List.getElem?_drop]

/-! ### The dilation -/

/-- The cells of the map, row by row. -/
lemma dilate_eq (dil : List Bool) :
    dilate mw mh dil =
      ((List.range mh).flatMap fun y => (List.range mw).map fun x => (x, y)).foldl
        (fun next p => dilateCell mw mh dil next p.1 p.2) dil := by
  rw [List.foldl_flatMap]
  simp only [List.foldl_map]
  rfl

lemma length_dilateCell (dil next : List Bool) (x y : ℕ) :
    (dilateCell mw mh dil next x y).length = next.length := by
  unfold dilateCell
  split_ifs
  · rfl
  · exact List.length_set
  · rfl

/-- A cell is set by the dilation if it was not and its window is not empty. -/
lemma getD_foldl_dilateCell (dil : List Bool) (i : ℕ) (cells : List (ℕ × ℕ)) (next : List Bool) :
    (cells.foldl (fun next p => dilateCell mw mh dil next p.1 p.2) next).getD i false = true ↔
      next.getD i false = true ∨ (i < next.length ∧ dil.getD i false = false ∧
        ∃ p ∈ cells, i = p.2 * mw + p.1 ∧ touches mw mh dil p.1 p.2 = true) := by
  induction cells generalizing next with
  | nil => simp
  | cons p cells ih =>
    rw [List.foldl_cons, ih, length_dilateCell]
    have hcell : (dilateCell mw mh dil next p.1 p.2).getD i false = true ↔
        next.getD i false = true ∨ (i < next.length ∧ dil.getD i false = false ∧
          i = p.2 * mw + p.1 ∧ touches mw mh dil p.1 p.2 = true) := by
      unfold dilateCell
      split_ifs with hset htouch
      · refine ⟨Or.inl, fun h => h.elim id fun ⟨_, hnot, hi, _⟩ => ?_⟩
        rw [hi, hset] at hnot
        cases hnot
      · rw [List.getD_eq_getElem?_getD, List.getElem?_set, List.getD_eq_getElem?_getD]
        rw [Bool.not_eq_true] at hset
        by_cases hi : p.2 * mw + p.1 = i
        · rw [if_pos hi]
          rw [hi] at hset
          split_ifs with hlen
          · rw [hi] at hlen
            exact ⟨fun _ => Or.inr ⟨hlen, hset, hi.symm, htouch⟩, fun _ => rfl⟩
          · rw [hi] at hlen
            have hnone : next[i]? = none := List.getElem?_eq_none (by omega)
            rw [hnone]
            exact ⟨Or.inl, fun h => h.elim id fun h => absurd h.1 hlen⟩
        · rw [if_neg hi]
          exact ⟨Or.inl, fun h => h.elim id fun ⟨_, _, hsame, _⟩ => absurd hsame.symm hi⟩
      · refine ⟨Or.inl, fun h => h.elim id fun ⟨_, _, _, h⟩ => absurd h htouch⟩
    rw [hcell]
    constructor
    · rintro ((h | ⟨hlen, hnot, hi, htouch⟩) | ⟨hlen, hnot, q, hq, h⟩)
      · exact Or.inl h
      · exact Or.inr ⟨hlen, hnot, p, List.mem_cons_self, hi, htouch⟩
      · exact Or.inr ⟨hlen, hnot, q, List.mem_cons_of_mem _ hq, h⟩
    · rintro (h | ⟨hlen, hnot, q, hq, h⟩)
      · exact Or.inl (Or.inl h)
      · rcases List.mem_cons.mp hq with rfl | hq
        · exact Or.inl (Or.inr ⟨hlen, hnot, h⟩)
        · exact Or.inr ⟨hlen, hnot, q, hq, h⟩

/-- Cells of one window. -/
def Near (p q : ℕ × ℕ) : Prop :=
  p.1 ≤ q.1 + 1 ∧ q.1 ≤ p.1 + 1 ∧ p.2 ≤ q.2 + 1 ∧ q.2 ≤ p.2 + 1

lemma touches_iff (dil : List Bool) :
    touches mw mh dil x y = true ↔
      ∃ q : ℕ × ℕ, q.1 < mw ∧ q.2 < mh ∧ Near (x, y) q ∧
        dil.getD (q.2 * mw + q.1) false = true := by
  have hwindow (n : ℤ) : n ∈ ([-1, 0, 1] : List ℤ) ↔ -1 ≤ n ∧ n ≤ 1 := by
    simp only [List.mem_cons, List.not_mem_nil, or_false]
    omega
  simp only [touches, List.any_eq_true, hwindow, Bool.and_eq_true, decide_eq_true_eq]
  constructor
  · rintro ⟨dy, hdy, dx, hdx, ⟨⟨⟨hx, hy⟩, hmw⟩, hmh⟩, hset⟩
    exact ⟨((x + dx).toNat, (y + dy).toNat), hmw, hmh, by unfold Near; dsimp only; omega, hset⟩
  · rintro ⟨⟨qx, qy⟩, hmw, hmh, hnear, hset⟩
    unfold Near at hnear
    dsimp only at hnear hmw hmh hset
    have hqx : ((x : ℤ) + (qx - x)).toNat = qx := by omega
    have hqy : ((y : ℤ) + (qy - y)).toNat = qy := by omega
    refine ⟨(qy : ℤ) - y, by omega, (qx : ℤ) - x, by omega, ?_⟩
    rw [hqx, hqy]
    exact ⟨⟨⟨⟨by omega, by omega⟩, hmw⟩, hmh⟩, hset⟩

/-- **The dilation** sets the cells that have a set cell in their window. -/
lemma getD_dilate {dil : List Bool} (hlen : dil.length = mh * mw) (hx : x < mw) (hy : y < mh) :
    (dilate mw mh dil).getD (y * mw + x) false = true ↔
      ∃ q : ℕ × ℕ, q.1 < mw ∧ q.2 < mh ∧ Near (x, y) q ∧
        dil.getD (q.2 * mw + q.1) false = true := by
  rw [dilate_eq, getD_foldl_dilateCell, ← touches_iff]
  constructor
  · rintro (h | ⟨-, -, p, hp, hi, htouch⟩)
    · rw [touches_iff]
      exact ⟨(x, y), hx, hy, by unfold Near; omega, h⟩
    · rw [List.mem_flatMap] at hp
      obtain ⟨py, -, hp⟩ := hp
      obtain ⟨px, hpx, rfl⟩ := List.mem_map.mp hp
      have hplace := place_index (y := y) hx
      rw [hi, place_index (List.mem_range.mp hpx)] at hplace
      cases hplace
      exact htouch
  · intro htouch
    by_cases h : dil.getD (y * mw + x) false = true
    · exact Or.inl h
    · rw [Bool.not_eq_true] at h
      refine Or.inr ⟨by rw [hlen]; exact index_lt hx hy, h, (x, y), ?_, rfl, htouch⟩
      rw [List.mem_flatMap]
      exact ⟨y, List.mem_range.mpr hy, List.mem_map.mpr ⟨x, List.mem_range.mpr hx, rfl⟩⟩

lemma length_dilate (dil : List Bool) : (dilate mw mh dil).length = dil.length := by
  rw [dilate_eq]
  generalize (List.range mh).flatMap _ = cells
  have hfold : ∀ next : List Bool,
      (cells.foldl (fun next p => dilateCell mw mh dil next p.1 p.2) next).length =
        next.length := by
    induction cells with
    | nil => exact fun _ => rfl
    | cons p cells ih =>
      intro next
      rw [List.foldl_cons, ih, length_dilateCell]
  exact hfold dil

/-! ### The cells that hang together -/

/-- Cells with a side in common. -/
def Beside (p q : ℕ × ℕ) : Prop :=
  (p.2 = q.2 ∧ (p.1 = q.1 + 1 ∨ q.1 = p.1 + 1)) ∨ (p.1 = q.1 ∧ (p.2 = q.2 + 1 ∨ q.2 = p.2 + 1))

lemma Beside.symm {p q : ℕ × ℕ} (h : Beside p q) : Beside q p := by
  unfold Beside at h ⊢
  omega

/-- To the left of the first column there is no cell, only a number too large to be one. -/
lemma wrappingPred_lt {n m k : ℕ} (hn : n < m) (hm : m < 2 ^ 64) :
    wrappingPred n = k ∧ k < m ↔ n = k + 1 := by
  unfold wrappingPred
  omega

lemma mem_beside (hx : x < mw) (hy : y < mh) (hw : mw < 2 ^ 64) (hh : mh < 2 ^ 64) (q : ℕ × ℕ) :
    (q ∈ [(wrappingPred x, y), (x + 1, y), (x, wrappingPred y), (x, y + 1)] ∧
      q.1 < mw ∧ q.2 < mh) ↔ (Beside (x, y) q ∧ q.1 < mw ∧ q.2 < mh) := by
  obtain ⟨qx, qy⟩ := q
  have hleft := wrappingPred_lt (k := qx) hx hw
  have hup := wrappingPred_lt (k := qy) hy hh
  simp only [List.mem_cons, Prod.mk.injEq, List.not_mem_nil, or_false, Beside]
  generalize wrappingPred x = left at hleft
  generalize wrappingPred y = up at hup
  omega

lemma mem_neighbours (hw : mw < 2 ^ 64) (hh : mh < 2 ^ 64) (mask : List Bool) {a b : ℕ}
    (ha : a < mh * mw) :
    b ∈ neighbours mw mh mask a ↔
      Beside (place mw a) (place mw b) ∧ b < mh * mw ∧ mask.getD b false = true := by
  obtain ⟨hx, hy⟩ := place_lt ha
  have hmem := mem_beside hx hy hw hh
  simp only [neighbours, List.mem_map, List.mem_filter, Bool.and_eq_true, decide_eq_true_eq]
  constructor
  · rintro ⟨⟨nx, ny⟩, ⟨hq, ⟨hnx, hny⟩, hset⟩, rfl⟩
    rw [place_index hnx]
    exact ⟨((hmem (nx, ny)).mp ⟨hq, hnx, hny⟩).1, index_lt hnx hny, hset⟩
  · rintro ⟨hbeside, hb, hset⟩
    obtain ⟨hbx, hby⟩ := place_lt hb
    refine ⟨place mw b, ⟨((hmem _).mpr ⟨hbeside, hbx, hby⟩).1, ⟨hbx, hby⟩, ?_⟩, ?_⟩
    · rwa [index_place]
    · exact index_place mw b

end Cells

/-! ### Regions -/

section Regions

variable (above : α → Bool) {out : List α} {ow mw mh : ℕ}

/-- A valid cell above the threshold. -/
def Bright (out : List α) (ow mw mh : ℕ) (p : ℕ × ℕ) : Prop :=
  p.1 < mw ∧ p.2 < mh ∧ ∃ v ∈ out[p.2 * ow + p.1]?, above v = true

/-- A valid cell with one above the threshold in its window. -/
def Lit (out : List α) (ow mw mh : ℕ) (p : ℕ × ℕ) : Prop :=
  p.1 < mw ∧ p.2 < mh ∧ ∃ q, Near p q ∧ Bright above out ow mw mh q

/-- Cells with a way between them over lit cells. -/
def Linked (out : List α) (ow mw mh : ℕ) : ℕ × ℕ → ℕ × ℕ → Prop :=
  Relation.ReflTransGen fun p q => Beside p q ∧ Lit above out ow mw mh q

/-- The order of the rows, and in a row. -/
def RowsBefore (p q : ℕ × ℕ) : Prop := p.2 < q.2 ∨ p.2 = q.2 ∧ p.1 < q.1

/-- The components by column and row. -/
def regions (out : List α) (ow mw mh : ℕ) : List (List (ℕ × ℕ)) :=
  (components mw mh (dilate mw mh (maskOf above out ow mw mh))).map fun part =>
    part.map (place mw)

/-- Regions: each lit cell in one of them, and in the same exactly those with a way between
them, from the first in the order of the rows on. -/
structure Separated (out : List α) (ow mw mh : ℕ) (regions : List (List (ℕ × ℕ))) : Prop where
  once : regions.flatten.Nodup
  covers : ∀ p, p ∈ regions.flatten ↔ Lit above out ow mw mh p
  linked : ∀ r ∈ regions, ∀ p ∈ r, ∀ q, q ∈ r ↔ Linked above out ow mw mh p q
  first : ∀ r ∈ regions, ∃ p ∈ r.head?, ∀ q ∈ r, q = p ∨ RowsBefore p q
  ordered : regions.Pairwise fun r s => ∀ p ∈ r.head?, ∀ q ∈ s.head?, RowsBefore p q

/-- A candidate is the least box around a region, with the probabilities of its cells. -/
structure Candidate.Bounds (out : List α) (ow : ℕ) (c : Candidate α) (region : List (ℕ × ℕ)) :
    Prop where
  inside : ∀ p ∈ region, c.x0 ≤ p.1 ∧ p.1 ≤ c.x1 ∧ c.y0 ≤ p.2 ∧ p.2 ≤ c.y1
  left : ∃ p ∈ region, p.1 = c.x0
  top : ∃ p ∈ region, p.2 = c.y0
  right : ∃ p ∈ region, p.1 = c.x1
  bottom : ∃ p ∈ region, p.2 = c.y1
  values : c.values.map some = region.map fun p => out[p.2 * ow + p.1]?

/-- The dilated mask, cell by cell. -/
lemma getD_mask (hle : mw ≤ ow) (hlen : mh * ow ≤ out.length) (i : ℕ) :
    (dilate mw mh (maskOf above out ow mw mh)).getD i false = true ↔
      i < mh * mw ∧ Lit above out ow mw mh (place mw i) := by
  obtain ⟨hmask, hcells⟩ := maskOf_spec above hle hlen
  have hbright {q : ℕ × ℕ} (hx : q.1 < mw) (hy : q.2 < mh) :
      (maskOf above out ow mw mh).getD (q.2 * mw + q.1) false = true ↔
        Bright above out ow mw mh q := by
    rw [List.getD_eq_getElem?_getD, hcells _ _ hx hy, Bright]
    cases out[q.2 * ow + q.1]? with
    | none => simp
    | some v => simp [hx, hy]
  constructor
  · intro h
    have hi : i < mh * mw := by
      by_contra hge
      rw [List.getD_eq_getElem?_getD, List.getElem?_eq_none] at h
      · cases h
      · rw [length_dilate, hmask]
        omega
    obtain ⟨hx, hy⟩ := place_lt hi
    rw [← index_place mw i, getD_dilate hmask hx hy] at h
    obtain ⟨q, hqx, hqy, hnear, hq⟩ := h
    exact ⟨hi, hx, hy, q, hnear, (hbright hqx hqy).mp hq⟩
  · rintro ⟨-, hx, hy, q, hnear, hq⟩
    rw [← index_place mw i, getD_dilate hmask hx hy]
    exact ⟨q, hq.1, hq.2.1, hnear, (hbright hq.1 hq.2.1).mpr hq⟩

variable (hle : mw ≤ ow) (hlen : mh * ow ≤ out.length) (hw : mw < 2 ^ 64) (hh : mh < 2 ^ 64)

include hle hlen hw hh

lemma mutual_mask :
    Flood.Mutual (neighbours mw mh (dilate mw mh (maskOf above out ow mw mh)))
      (fun i => (dilate mw mh (maskOf above out ow mw mh)).getD i false)
      (List.range (mh * mw)) where
  back a b ha hb := by
    have halt := ((getD_mask above hle hlen a).mp ha).1
    obtain ⟨hbeside, hblt, hset⟩ := (mem_neighbours hw hh _ halt).mp hb
    exact ⟨hset, (mem_neighbours hw hh _ hblt).mpr ⟨hbeside.symm, halt, ha⟩⟩
  listed a ha := List.mem_range.mpr ((getD_mask above hle hlen a).mp ha).1

/-- A way over cells of the mask is a way over lit cells. -/
lemma joined_iff {a b : ℕ}
    (ha : (dilate mw mh (maskOf above out ow mw mh)).getD a false = true) :
    Flood.Joined (neighbours mw mh (dilate mw mh (maskOf above out ow mw mh))) a b ↔
      Linked above out ow mw mh (place mw a) (place mw b) := by
  have hm := mutual_mask above hle hlen hw hh
  constructor
  · intro h
    induction h with
    | refl => exact Relation.ReflTransGen.refl
    | tail hto hstep ih =>
      have hb := ((getD_mask above hle hlen _).mp (hm.joined ha hto).1).1
      obtain ⟨hbeside, -, hset⟩ := (mem_neighbours hw hh _ hb).mp hstep
      exact ih.tail ⟨hbeside, ((getD_mask above hle hlen _).mp hset).2⟩
  · intro h
    have hfind : ∀ q, Linked above out ow mw mh (place mw a) q → ∃ c, place mw c = q ∧
        Flood.Joined (neighbours mw mh (dilate mw mh (maskOf above out ow mw mh))) a c := by
      intro q hq
      induction hq with
      | refl => exact ⟨a, rfl, Relation.ReflTransGen.refl⟩
      | @tail p q _ hstep ih =>
        obtain ⟨c, rfl, hc⟩ := ih
        obtain ⟨hbeside, hlit⟩ := hstep
        have hplace : place mw (q.2 * mw + q.1) = q := place_index hlit.1
        have hlt := index_lt hlit.1 hlit.2.1
        refine ⟨q.2 * mw + q.1, hplace, hc.tail ?_⟩
        have hclt := ((getD_mask above hle hlen c).mp (hm.joined ha hc).1).1
        refine (mem_neighbours hw hh _ hclt).mpr ⟨by rwa [hplace], hlt, ?_⟩
        rw [getD_mask above hle hlen, hplace]
        exact ⟨hlt, hlit⟩
    obtain ⟨c, hplace, hc⟩ := hfind _ h
    rwa [← place_injective mw hplace]

/-- The regions are the classes of lit cells with a way between them. -/
lemma separated : Separated above out ow mw mh (regions above out ow mw mh) := by
  have hmask := getD_mask above hle hlen
  have hparts : Flood.Parts (neighbours mw mh (dilate mw mh (maskOf above out ow mw mh)))
      (fun i => (dilate mw mh (maskOf above out ow mw mh)).getD i false) (· < ·)
      (components mw mh (dilate mw mh (maskOf above out ow mw mh))) := by
    have h := Flood.parts_sweep (mutual_mask above hle hlen hw hh)
      (List.pairwise_lt_range (n := mh * mw))
    rwa [List.length_range] at h
  have hjoined {a b : ℕ} := joined_iff above hle hlen hw hh (a := a) (b := b)
  unfold regions
  generalize dilate mw mh (maskOf above out ow mw mh) = mask at hmask hparts hjoined
  generalize components mw mh mask = parts at hparts
  have hset {part : List ℕ} (hpart : part ∈ parts) {a : ℕ} (ha : a ∈ part) :
      mask.getD a false = true :=
    (hparts.covers a).mp (List.mem_flatten_of_mem hpart ha)
  have hrows {a b : ℕ} (hab : a < b) : RowsBefore (place mw a) (place mw b) := by
    have ha := index_place mw a
    have hb := index_place mw b
    unfold RowsBefore
    rcases Nat.lt_trichotomy (place mw a).2 (place mw b).2 with hlt | heq | hgt
    · exact Or.inl hlt
    · rw [heq] at ha
      exact Or.inr ⟨heq, by omega⟩
    · have hdiv : a / mw ≤ b / mw := Nat.div_le_div_right hab.le
      exact absurd hdiv (Nat.not_le.mpr hgt)
  have hflatten : (parts.map fun part => part.map (place mw)).flatten =
      parts.flatten.map (place mw) := by rw [List.map_flatten]
  have hmem : ∀ p, p ∈ (parts.map fun part => part.map (place mw)).flatten ↔
      Lit above out ow mw mh p := by
    intro p
    rw [hflatten, List.mem_map]
    constructor
    · rintro ⟨a, ha, rfl⟩
      exact ((hmask a).mp ((hparts.covers a).mp ha)).2
    · intro hlit
      have hplace : place mw (p.2 * mw + p.1) = p := place_index hlit.1
      refine ⟨p.2 * mw + p.1, (hparts.covers _).mpr ((hmask _).mpr ⟨?_, ?_⟩), hplace⟩
      · exact index_lt hlit.1 hlit.2.1
      · rwa [hplace]
  refine ⟨?_, hmem, ?_, ?_, ?_⟩
  · rw [hflatten]
    exact hparts.once.map (place_injective mw)
  · intro r hr p hp q
    obtain ⟨part, hpart, rfl⟩ := List.mem_map.mp hr
    obtain ⟨a, ha, rfl⟩ := List.mem_map.mp hp
    constructor
    · intro hq
      obtain ⟨b, hb, rfl⟩ := List.mem_map.mp hq
      exact (hjoined (hset hpart ha)).mp ((hparts.joined part hpart a ha b).mp hb)
    · intro hq
      have hlit : Lit above out ow mw mh q := by
        rcases Relation.ReflTransGen.cases_tail hq with heq | ⟨_, -, -, hlit⟩
        · rw [heq]
          exact ((hmask a).mp (hset hpart ha)).2
        · exact hlit
      have hplace : place mw (q.2 * mw + q.1) = q := place_index hlit.1
      rw [← hplace] at hq ⊢
      exact List.mem_map_of_mem
        ((hparts.joined part hpart a ha _).mpr ((hjoined (hset hpart ha)).mpr hq))
  · intro r hr
    obtain ⟨part, hpart, rfl⟩ := List.mem_map.mp hr
    obtain ⟨a, ha, hfirst⟩ := hparts.first part hpart
    refine ⟨place mw a, ?_, fun q hq => ?_⟩
    · rw [List.head?_map, Option.mem_def, Option.mem_def.mp ha]
      rfl
    · obtain ⟨b, hb, rfl⟩ := List.mem_map.mp hq
      exact (hfirst b hb).imp (congrArg (place mw)) hrows
  · rw [List.pairwise_map]
    refine hparts.ordered.imp fun {r s} h p hp q hq => ?_
    rw [List.head?_map, Option.mem_map] at hp hq
    obtain ⟨a, ha, rfl⟩ := hp
    obtain ⟨b, hb, rfl⟩ := hq
    exact hrows (h a ha b hb)

omit hle hlen hw hh in
/-- The box so far spans the cells so far, and its sides are those it began with or touch one. -/
lemma candidate_spans (out : List α) (ow mw mh : ℕ) (part : List ℕ)
    (hin : ∀ cur ∈ part, cur / mw * ow + cur % mw < out.length) :
    (∀ cur ∈ part, (candidate out ow mw mh part).x0 ≤ cur % mw ∧
      cur % mw ≤ (candidate out ow mw mh part).x1 ∧
      (candidate out ow mw mh part).y0 ≤ cur / mw ∧
      cur / mw ≤ (candidate out ow mw mh part).y1) ∧
      ((candidate out ow mw mh part).x0 = mw ∨
        ∃ cur ∈ part, cur % mw = (candidate out ow mw mh part).x0) ∧
      ((candidate out ow mw mh part).y0 = mh ∨
        ∃ cur ∈ part, cur / mw = (candidate out ow mw mh part).y0) ∧
      ((candidate out ow mw mh part).x1 = 0 ∨
        ∃ cur ∈ part, cur % mw = (candidate out ow mw mh part).x1) ∧
      ((candidate out ow mw mh part).y1 = 0 ∨
        ∃ cur ∈ part, cur / mw = (candidate out ow mw mh part).y1) ∧
      (candidate out ow mw mh part).values.map some =
        part.map fun cur => out[cur / mw * ow + cur % mw]? := by
  induction part using List.reverseRecOn with
  | nil =>
    exact ⟨fun _ h => absurd h List.not_mem_nil, Or.inl rfl, Or.inl rfl, Or.inl rfl, Or.inl rfl,
      rfl⟩
  | append_singleton part cur ih =>
    obtain ⟨hspan, hx0, hy0, hx1, hy1, hvalues⟩ :=
      ih fun c hc => hin c (List.mem_append_left _ hc)
    have hgrow : candidate out ow mw mh (part ++ [cur]) =
        (candidate out ow mw mh part).grow out ow mw cur := by
      rw [candidate, List.foldl_append]
      rfl
    rw [hgrow]
    generalize candidate out ow mw mh part = c at hspan hx0 hy0 hx1 hy1 hvalues
    have hcur := hin cur (List.mem_append_right _ (List.mem_singleton.mpr rfl))
    -- a side moves to the new cell or stays
    have hside {f : ℕ → ℕ} {side start new : ℕ} (h : side = start ∨ ∃ c ∈ part, f c = side)
        (hnew : new = side ∨ new = f cur) : new = start ∨ ∃ c ∈ part ++ [cur], f c = new := by
      rcases hnew with rfl | rfl
      · exact h.imp_right fun ⟨d, hd, heq⟩ => ⟨d, List.mem_append_left _ hd, heq⟩
      · exact Or.inr ⟨cur, List.mem_append_right _ (List.mem_singleton.mpr rfl), rfl⟩
    refine ⟨fun d hd => ?_, hside hx0 ?_, hside hy0 ?_, hside hx1 ?_, hside hy1 ?_, ?_⟩
    · dsimp only [Candidate.grow]
      rcases List.mem_append.mp hd with hd | hd
      · have := hspan d hd
        omega
      · rw [List.mem_singleton.mp hd]
        omega
    · dsimp only [Candidate.grow]
      omega
    · dsimp only [Candidate.grow]
      omega
    · dsimp only [Candidate.grow]
      omega
    · dsimp only [Candidate.grow]
      omega
    · rw [List.map_append, ← hvalues]
      dsimp only [Candidate.grow]
      rw [List.getElem?_eq_getElem hcur, List.map_append, List.map_singleton,
        List.getElem?_eq_getElem hcur]
      rfl

/-- A component's candidate bounds its region. -/
lemma bounds {part : List ℕ}
    (hpart : part ∈ components mw mh (dilate mw mh (maskOf above out ow mw mh))) :
    (candidate out ow mw mh part).Bounds out ow (part.map (place mw)) := by
  have hs := separated above hle hlen hw hh
  have hregion : part.map (place mw) ∈ regions above out ow mw mh := List.mem_map_of_mem hpart
  have hlit : ∀ cur ∈ part, cur % mw < mw ∧ cur / mw < mh := by
    intro cur hcur
    have h := (hs.covers (place mw cur)).mp
      (List.mem_flatten_of_mem hregion (List.mem_map_of_mem hcur))
    exact ⟨h.1, h.2.1⟩
  obtain ⟨cur, hcur⟩ : ∃ cur, cur ∈ part := by
    obtain ⟨p, hp, -⟩ := hs.first _ hregion
    obtain ⟨cur, hcur, -⟩ := List.mem_map.mp (List.mem_of_mem_head? hp)
    exact ⟨cur, hcur⟩
  obtain ⟨hspan, hx0, hy0, hx1, hy1, hvalues⟩ :=
    candidate_spans out ow mw mh part fun cur hcur => by
      obtain ⟨hx, hy⟩ := hlit cur hcur
      exact (index_lt (hx.trans_le hle) hy).trans_le hlen
  generalize candidate out ow mw mh part = c at hspan hx0 hy0 hx1 hy1 hvalues
  have hfirst := hspan cur hcur
  have hin := hlit cur hcur
  have hplace {f : ℕ × ℕ → ℕ} {side : ℕ} (h : ∃ cur ∈ part, f (place mw cur) = side) :
      ∃ p ∈ part.map (place mw), f p = side := by
    obtain ⟨d, hd, heq⟩ := h
    exact ⟨place mw d, List.mem_map_of_mem hd, heq⟩
  refine ⟨fun p hp => ?_, hplace (hx0.resolve_left (by omega)),
    hplace (hy0.resolve_left (by omega)), hplace ?_, hplace ?_, ?_⟩
  · obtain ⟨d, hd, rfl⟩ := List.mem_map.mp hp
    exact hspan d hd
  · exact hx1.elim (fun hzero => ⟨cur, hcur, by dsimp only [place]; omega⟩) id
  · exact hy1.elim (fun hzero => ⟨cur, hcur, by dsimp only [place]; omega⟩) id
  · rw [hvalues, List.map_map]
    rfl

/-- The candidates, region by region. -/
lemma candidates_bound :
    List.Forall₂ (fun c r => c.Bounds out ow r) (candidates above out ow mw mh)
      ((regions above out ow mw mh).filter fun r => 9 ≤ r.length) := by
  have hbounds {part : List ℕ}
      (hpart : part ∈ components mw mh (dilate mw mh (maskOf above out ow mw mh))) :=
    bounds above hle hlen hw hh hpart
  unfold candidates regions
  generalize components mw mh (dilate mw mh (maskOf above out ow mw mh)) = parts at hbounds
  induction parts with
  | nil => exact List.Forall₂.nil
  | cons part parts ih =>
    have hpart := hbounds List.mem_cons_self
    have hcount : (candidate out ow mw mh part).values.length =
        (part.map (place mw)).length := by
      have h := congrArg List.length hpart.values
      rwa [List.length_map, List.length_map] at h
    have hrest := ih fun h => hbounds (List.mem_cons_of_mem _ h)
    rw [List.map_cons, List.map_cons, List.filter_cons, List.filter_cons, hcount]
    split_ifs
    · exact List.Forall₂.cons hpart hrest
    · exact hrest

/-- **The detector finds the regions of text.** The cells within one of a probability above the
threshold fall into regions, by whether a way over such cells joins them. Each region of nine
cells or more is a candidate: the least box around it, with the probabilities of its cells as the
full map has them. Of the boxes that the candidates are worth those first in reading order are
left, all of them if they are no more than 200. -/
theorem detect_exact (toBox : Candidate α → Option (TextBox σ)) :
    Separated above out ow mw mh (regions above out ow mw mh) ∧
      List.Forall₂ (fun c r => c.Bounds out ow r) (candidates above out ow mw mh)
        ((regions above out ow mw mh).filter fun r => 9 ≤ r.length) ∧
      (detect above toBox out ow mw mh).Pairwise (fun a b => readsBefore a b) ∧
      ∃ dropped : List (TextBox σ),
        (detect above toBox out ow mw mh ++ dropped).Perm
          ((candidates above out ow mw mh).filterMap toBox) ∧
        (dropped ≠ [] → (detect above toBox out ow mw mh).length = 200) ∧
        ∀ a ∈ detect above toBox out ow mw mh, ∀ b ∈ dropped, readsBefore a b := by
  have hsorted : (((candidates above out ow mw mh).filterMap toBox).mergeSort
      readsBefore).Pairwise (fun a b => readsBefore a b) := by
    apply List.pairwise_mergeSort
    · intro a b c hab hbc
      simp only [readsBefore, Bool.or_eq_true, Bool.and_eq_true, decide_eq_true_eq,
        beq_iff_eq] at hab hbc ⊢
      omega
    · intro a b
      simp only [readsBefore, Bool.or_eq_true, Bool.and_eq_true, decide_eq_true_eq,
        beq_iff_eq]
      omega
  have hperm := List.mergeSort_perm ((candidates above out ow mw mh).filterMap toBox)
    readsBefore
  unfold detect
  generalize ((candidates above out ow mw mh).filterMap toBox).mergeSort readsBefore = boxes
    at hsorted hperm
  rw [← List.take_append_drop 200 boxes, List.pairwise_append] at hsorted
  refine ⟨separated above hle hlen hw hh, candidates_bound above hle hlen hw hh, hsorted.1,
    boxes.drop 200, ?_, fun hdropped => ?_, hsorted.2.2⟩
  · rwa [List.take_append_drop]
  · have hlong : 200 < boxes.length := by
      by_contra hshort
      exact hdropped (List.drop_of_length_le (by omega))
    rw [List.length_take]
    omega

end Regions

/-- One bright cell in the middle of a padded map. -/
theorem detect_exact_dot :
    candidates (1 ≤ ·) [0, 0, 0, 9, 0, 1, 0, 9, 0, 0, 0, 9] 4 3 3 =
        [⟨0, 0, 2, 2, [0, 0, 0, 0, 1, 0, 0, 0, 0]⟩] ∧
      Separated (1 ≤ ·) [0, 0, 0, 9, 0, 1, 0, 9, 0, 0, 0, 9] 4 3 3
        (regions (1 ≤ ·) [0, 0, 0, 9, 0, 1, 0, 9, 0, 0, 0, 9] 4 3 3) :=
  ⟨by decide, (detect_exact (1 ≤ ·) (by decide) (by decide) (by decide) (by decide)
    fun c => some (TextBox.mk c.x0 c.y0 (c.x1 + 1) (c.y1 + 1) ())).1⟩

end TheKvm.Detect

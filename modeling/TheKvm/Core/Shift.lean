import TheKvm.Core.Arrange
import TheKvm.Core.Grid

/-!
The unit shift of a grid position in 32-bit arithmetic.

`validate` does not bound coordinates, so the neighbour of a screen at a limit of `i32` is one
overflow away. Everywhere else the grid is what its integers say, and placing a peer keeps it so
unless the peer has a second screen there or is pinned to this machine's own screen.
-/

namespace TheKvm

/-- `+` of `i32`, which panics where it overflows: `none`. -/
def checkedAdd32 (a b : Int32) : Option Int32 :=
  if -2 ^ 31 ≤ a.toInt + b.toInt ∧ a.toInt + b.toInt < 2 ^ 31 then some (a + b) else none

/-- `-` of `i32`. -/
def checkedSub32 (a b : Int32) : Option Int32 :=
  if -2 ^ 31 ≤ a.toInt - b.toInt ∧ a.toInt - b.toInt < 2 ^ 31 then some (a - b) else none

lemma checkedAdd32_some {a b c : Int32} :
    checkedAdd32 a b = some c ↔ c.toInt = a.toInt + b.toInt := by
  unfold checkedAdd32
  split_ifs with h
  · have hadd : (a + b).toInt = a.toInt + b.toInt := by
      rw [Int32.toInt_add, Int.bmod_eq_of_le] <;> omega
    rw [Option.some.injEq, ← Int32.toInt_inj, hadd, eq_comm]
  · have hle := c.le_toInt
    have hlt := c.toInt_lt
    simp only [false_iff]
    omega

/-- The position next to a screen is not beyond the limits of `i32`. -/
def Screen.Fits (screen : Screen) : Edge → Prop
  | .left => screen.x ≠ Int32.minValue
  | .right => screen.x ≠ Int32.maxValue
  | .top => screen.y ≠ Int32.minValue
  | .bottom => screen.y ≠ Int32.maxValue

instance decidableFits (screen : Screen) : (edge : Edge) → Decidable (screen.Fits edge)
  | .left => inferInstanceAs (Decidable (_ ≠ _))
  | .right => inferInstanceAs (Decidable (_ ≠ _))
  | .top => inferInstanceAs (Decidable (_ ≠ _))
  | .bottom => inferInstanceAs (Decidable (_ ≠ _))

/-- One step in a direction, in integers. -/
def Edge.step : Edge → ℤ × ℤ
  | .left => (-1, 0)
  | .right => (1, 0)
  | .top => (0, -1)
  | .bottom => (0, 1)

def Screen.position (screen : Screen) : ℤ × ℤ := (screen.x.toInt, screen.y.toInt)

namespace Layout

/-- `neighbor_for_edge`, with `none` where its arithmetic overflows. -/
def neighborForEdgeChecked (l : Layout) (me : ScreenId) (edge : Edge) :
    Option (Option ScreenId) :=
  match l.screens.find? fun s => s.id = me with
  | none => some none
  | some mine => do
    let (dx, dy) : Int32 × Int32 := match edge with
      | .left => (-1, 0)
      | .right => (1, 0)
      | .top => (0, -1)
      | .bottom => (0, 1)
    let tx ← checkedAdd32 mine.x dx
    let ty ← checkedAdd32 mine.y dy
    some ((l.screens.find? fun s => s.x = tx ∧ s.y = ty).map (·.id))

/-- The arithmetic of `place_peer`. -/
def besideChecked (me : Screen) : Edge → Option (Int32 × Int32)
  | .left => (checkedSub32 me.x 1).map fun x => (x, me.y)
  | .right => (checkedAdd32 me.x 1).map fun x => (x, me.y)
  | .top => (checkedSub32 me.y 1).map fun y => (me.x, y)
  | .bottom => (checkedAdd32 me.y 1).map fun y => (me.x, y)

/-- `place_peer`, with `none` where its arithmetic overflows. -/
def placePeerChecked (l : Layout) (fingerprint : String) (side : Edge) :
    Option (Except String Layout) :=
  match l.me with
  | none => some (.error "layout has no local screen")
  | some me => (besideChecked me side).map fun (x, y) =>
    if l.screens.any fun screen =>
        !screen.pinnedTo fingerprint && screen.x = x && screen.y = y then
      .error "another screen already occupies that position"
    else if l.screens.any (Screen.pinnedTo fingerprint) then
      .ok { l with
        screens := modifyFirst (Screen.pinnedTo fingerprint) (Screen.moveTo x y) l.screens }
    else .error "layout has no linked peer screen"

/-- The neighbour of a screen through an edge is computed, it is one step away, and the way back
leads home. -/
def NeighborRight (l : Layout) (a : ScreenId) (edge : Edge) : Prop :=
  ∃ result, l.neighborForEdgeChecked a edge = some result ∧
    ∀ b, result = some b →
      (∀ s t, l.screen a = some s → l.screen b = some t →
        t.position = s.position + edge.step) ∧
      l.neighborForEdgeChecked b edge.opposite = some (some a)

/-- The placement of a peer is computed, and where it is accepted the layout is valid and has the
peer on the side. -/
def PlacementRight (l : Layout) (fingerprint : String) (side : Edge) : Prop :=
  ∃ result, l.placePeerChecked fingerprint side = some result ∧
    ∀ placed, result = .ok placed → placed.validate = .ok () ∧
      ∃ me peer, placed.selfScreen = some me ∧
        l.screens.find? (Screen.pinnedTo fingerprint) = some peer ∧
        placed.neighborForEdgeChecked me side = some (some peer.id)

/-- The step from the screen does not overflow. -/
def NeighborFits (l : Layout) (a : ScreenId) (edge : Edge) : Prop :=
  ∀ s, l.screen a = some s → s.Fits edge

/-- The step from this machine's screen does not overflow, and where no screen of others is in the
way, the peer's first screen is not this machine's and the peer has no second one there. -/
def PlacementFits (l : Layout) (fingerprint : String) (side : Edge) : Prop :=
  ∀ me, l.me = some me → me.Fits side ∧
    ∀ peer, l.screens.find? (Screen.pinnedTo fingerprint) = some peer →
      (∀ s ∈ l.screens, (s.x, s.y) = me.beside side → s.pinnedTo fingerprint = true) →
      peer ≠ me ∧
        ∀ s ∈ l.screens, (s.x, s.y) = me.beside side → s = peer

/-! ### The step -/

section

variable {l : Layout} {screen : Screen} {edge : Edge}

lemma toInt_ne {a b : Int32} : a ≠ b ↔ a.toInt ≠ b.toInt := Int32.toInt_inj.not.symm

lemma checkedAdd32_one (a : Int32) :
    checkedAdd32 a 1 = if a ≠ Int32.maxValue then some (a + 1) else none := by
  have hlow := a.le_toInt
  have hlt := a.toInt_lt
  simp only [checkedAdd32, toInt_ne, Int32.toInt_maxValue, Int32.toInt_one]
  exact if_congr (by omega) rfl rfl

lemma checkedAdd32_neg_one (a : Int32) :
    checkedAdd32 a (-1) = if a ≠ Int32.minValue then some (a + -1) else none := by
  have hlow := a.le_toInt
  have hlt := a.toInt_lt
  have hone : (-1 : Int32).toInt = -1 := rfl
  simp only [checkedAdd32, toInt_ne, Int32.toInt_minValue, hone]
  exact if_congr (by omega) rfl rfl

lemma checkedSub32_one (a : Int32) :
    checkedSub32 a 1 = if a ≠ Int32.minValue then some (a - 1) else none := by
  have hlow := a.le_toInt
  have hlt := a.toInt_lt
  simp only [checkedSub32, toInt_ne, Int32.toInt_minValue, Int32.toInt_one]
  exact if_congr (by omega) rfl rfl

lemma checkedAdd32_zero (a : Int32) : checkedAdd32 a 0 = some a := by
  rw [checkedAdd32_some, Int32.toInt_zero, add_zero]

/-- The checked step is the wrapping one where it fits. -/
lemma besideChecked_eq (screen : Screen) (edge : Edge) :
    besideChecked screen edge =
      if screen.Fits edge then some (screen.beside edge) else none := by
  by_cases h : screen.Fits edge
  · rw [if_pos h]
    cases edge <;>
      rw [Screen.Fits] at h <;>
      simp [besideChecked, checkedAdd32_one, checkedSub32_one, Screen.beside, h]
  · rw [if_neg h]
    cases edge <;>
      rw [Screen.Fits, not_not] at h <;>
      simp [besideChecked, checkedAdd32_one, checkedSub32_one, h]

/-- Placing a peer completes exactly if the step from this machine's screen fits. -/
lemma placePeerChecked_some {fingerprint : String} {side : Edge} {result : Except String Layout} :
    l.placePeerChecked fingerprint side = some result ↔
      (∀ me, l.me = some me → me.Fits side) ∧ l.placePeer fingerprint side = result := by
  unfold placePeerChecked placePeer
  rcases hme : l.me with _ | me
  · simp
  · simp only [Option.some.injEq, forall_eq', besideChecked_eq]
    by_cases h : me.Fits side <;> simp [h]

/-- Looking for a neighbour completes exactly if the step from the screen fits. -/
lemma neighborForEdgeChecked_some {a : ScreenId} {result : Option ScreenId} :
    l.neighborForEdgeChecked a edge = some result ↔
      l.NeighborFits a edge ∧ l.neighborForEdge a edge = result := by
  unfold NeighborFits
  rcases hs : l.screen a with _ | s
  · rw [Layout.screen] at hs
    simp [neighborForEdgeChecked, neighborForEdge, hs]
  · simp only [Option.some.injEq, forall_eq']
    rw [Layout.screen] at hs
    simp only [neighborForEdgeChecked, neighborForEdge, hs]
    by_cases h : s.Fits edge <;>
      cases edge <;>
      simp only [Screen.Fits] at h <;>
      simp [checkedAdd32_one, checkedAdd32_neg_one, checkedAdd32_zero, Screen.Fits, h]

/-- A step that fits is one step in integers. -/
lemma position_of_step {s t : Screen} (hfits : s.Fits edge)
    (hx : t.x = s.x + (offset edge).1) (hy : t.y = s.y + (offset edge).2) :
    t.position = s.position + edge.step := by
  have hone : ∀ {a : Int32}, a ≠ Int32.maxValue → (a + 1).toInt = a.toInt + 1 := fun {a} h =>
    checkedAdd32_some.mp (by rw [checkedAdd32_one, if_pos h])
  have hneg : ∀ {a : Int32}, a ≠ Int32.minValue → (a + -1).toInt = a.toInt + -1 := fun {a} h =>
    checkedAdd32_some.mp (by rw [checkedAdd32_neg_one, if_pos h])
  rw [Screen.position, Screen.position, hx, hy]
  cases edge with
  | left => simp [offset, Edge.step, hneg hfits]
  | right => simp [offset, Edge.step, hone hfits]
  | top => simp [offset, Edge.step, hneg hfits]
  | bottom => simp [offset, Edge.step, hone hfits]

/-- The step back from where a step led fits. -/
lemma fits_opposite {s t : Screen} (h : t.position = s.position + edge.step) :
    t.Fits edge.opposite := by
  have hx := congrArg Prod.fst h
  have hy := congrArg Prod.snd h
  have hlow := s.x.le_toInt
  have hlow' := s.y.le_toInt
  have hlt := s.x.toInt_lt
  have hlt' := s.y.toInt_lt
  cases edge <;>
    simp only [Screen.position, Edge.step, Prod.fst_add, Prod.snd_add] at hx hy <;>
    simp only [Edge.opposite, Screen.Fits, toInt_ne, Int32.toInt_minValue,
      Int32.toInt_maxValue] <;>
    omega

/-- **When a neighbour is right**: exactly if the step from the screen fits. -/
lemma neighborRight_iff (hv : l.Valid) (a : ScreenId) (edge : Edge) :
    l.NeighborRight a edge ↔ l.NeighborFits a edge := by
  constructor
  · rintro ⟨result, hresult, -⟩
    exact (neighborForEdgeChecked_some.mp hresult).1
  · intro hfits
    refine ⟨_, neighborForEdgeChecked_some.mpr ⟨hfits, rfl⟩, fun b hb => ?_⟩
    obtain ⟨s, hs, t, ht, rfl, rfl, hx, hy⟩ := (neighborForEdge_some hv).mp hb
    have hsa := screen_of_mem hv.ids hs
    have htb := screen_of_mem hv.ids ht
    have hstep := position_of_step (hfits s hsa) hx hy
    refine ⟨fun s' t' hs' ht' => ?_, ?_⟩
    · obtain rfl := Option.some.inj (hsa.symm.trans hs')
      obtain rfl := Option.some.inj (htb.symm.trans ht')
      exact hstep
    · refine neighborForEdgeChecked_some.mpr ⟨fun t' ht' => ?_, neighborForEdge_opposite hv hb⟩
      obtain rfl := Option.some.inj (htb.symm.trans ht')
      exact fits_opposite hstep

end

/-! ### Placing a peer -/

lemma modifyFirst_of_find {α : Type*} {p : α → Bool} {f : α → α} {l : List α} {a : α}
    (h : l.find? p = some a) :
    ∃ k m, l = k ++ a :: m ∧ modifyFirst p f l = k ++ f a :: m := by
  induction l with
  | nil => cases h
  | cons b l ih =>
    rw [modifyFirst]
    by_cases hb : p b = true
    · rw [List.find?_cons_of_pos hb, Option.some.injEq] at h
      subst h
      exact ⟨[], l, rfl, by simp [hb]⟩
    · rw [List.find?_cons_of_neg hb] at h
      obtain ⟨k, m, rfl, hmodified⟩ := ih h
      exact ⟨b :: k, m, rfl, by simp [hb, hmodified]⟩

section

variable {l placed : Layout} {me peer : Screen} {fingerprint : String} {side : Edge}

/-- What an accepted placement makes of the screens. -/
lemma placed_screens (hme : l.me = some me)
    (hpeer : l.screens.find? (Screen.pinnedTo fingerprint) = some peer)
    (hplaced : l.placePeer fingerprint side = .ok placed) :
    (∀ s ∈ l.screens, (s.x, s.y) = me.beside side → s.pinnedTo fingerprint = true) ∧
    placed.selfScreen = l.selfScreen ∧
    ∃ k m, l.screens = k ++ peer :: m ∧
      placed.screens =
        k ++ peer.moveTo (me.beside side).1 (me.beside side).2 :: m := by
  obtain ⟨k, m, hscreens, hmodified⟩ := modifyFirst_of_find
    (f := Screen.moveTo (me.beside side).1 (me.beside side).2) hpeer
  simp only [placePeer, hme] at hplaced
  split_ifs at hplaced with htaken
  obtain rfl := Except.ok.inj hplaced
  refine ⟨fun s hs hat => ?_, rfl, k, m, hscreens, hmodified⟩
  by_contra hother
  refine htaken (List.any_eq_true.mpr ⟨s, hs, ?_⟩)
  simp [Bool.eq_false_iff.mpr hother, ← hat]

/-- A layout with one screen moved is valid exactly if the place was free. -/
lemma placed_valid_iff (hv : l.Valid) {k m : List Screen} {x y : Int32}
    (hscreens : l.screens = k ++ peer :: m) (hplaced : placed.screens = k ++ peer.moveTo x y :: m)
    (hself : placed.selfScreen = l.selfScreen) :
    placed.Valid ↔ ∀ s ∈ l.screens, (s.x, s.y) = (x, y) → s = peer := by
  have hids : placed.screens.map (·.id) = l.screens.map (·.id) := by
    rw [hscreens, hplaced, List.map_append, List.map_append]
    rfl
  have hmem : ∀ s, s ∈ l.screens ↔ s = peer ∨ s ∈ k ++ m := fun s => by
    rw [hscreens]
    simp only [List.mem_append, List.mem_cons]
    tauto
  have hold := hv.positions
  rw [hscreens, List.map_append, List.map_cons, List.nodup_middle, List.nodup_cons,
    ← List.map_append] at hold
  have hpositions : (placed.screens.map fun s => (s.x, s.y)).Nodup ↔
      (x, y) ∉ (k ++ m).map fun s => (s.x, s.y) := by
    rw [hplaced, List.map_append, List.map_cons, List.nodup_middle, List.nodup_cons,
      ← List.map_append]
    exact and_iff_left hold.2
  have hfree : (∀ s ∈ l.screens, (s.x, s.y) = (x, y) → s = peer) ↔
      (x, y) ∉ (k ++ m).map fun s => (s.x, s.y) := by
    rw [List.mem_map]
    constructor
    · rintro h ⟨s, hs, hat⟩
      obtain rfl := h s ((hmem s).mpr (.inr hs)) hat
      exact hold.1 (List.mem_map_of_mem hs)
    · intro h s hs hat
      exact ((hmem s).mp hs).resolve_right fun hs' => h ⟨s, hs', hat⟩
  rw [hfree, ← hpositions]
  refine ⟨fun h => h.positions, fun h => ?_⟩
  have hforall : ∀ P : Screen → Prop, (∀ s ∈ l.screens, P s) → P (peer.moveTo x y) →
      ∀ s ∈ placed.screens, P s := by
    intro P hP hmoved s hs
    rw [hplaced, List.mem_append, List.mem_cons] at hs
    rcases hs with hs | rfl | hs
    · exact hP s ((hmem s).mpr (.inr (List.mem_append_left _ hs)))
    · exact hmoved
    · exact hP s ((hmem s).mpr (.inr (List.mem_append_right _ hs)))
  have hpeer : peer ∈ l.screens := (hmem peer).mpr (.inl rfl)
  exact
    { bounded := by
        have hlen := congrArg List.length hids
        rw [List.length_map, List.length_map] at hlen
        rw [hlen]
        exact hv.bounded
      named := hforall _ hv.named (hv.named peer hpeer)
      sized := hforall _ hv.sized (hv.sized peer hpeer)
      ids := by
        rw [hids]
        exact hv.ids
      positions := h
      self := by
        rw [hids, hself]
        exact hv.self }

lemma beside_eq (me : Screen) (side : Edge) :
    me.beside side = (me.x + (offset side).1, me.y + (offset side).2) := by
  cases side <;> simp [Screen.beside, offset, Int32.sub_eq_add_neg]

lemma me_some : l.me = some me ↔ l.selfScreen = some me.id ∧ l.screen me.id = some me := by
  rw [Layout.me, Option.bind_eq_some_iff]
  constructor
  · rintro ⟨id, hself, hme⟩
    obtain rfl := (screen_some hme).2
    exact ⟨hself, hme⟩
  · rintro ⟨hself, hme⟩
    exact ⟨me.id, hself, hme⟩

/-- A place that no screen of others has is taken. -/
lemma placePeer_of_free (hme : l.me = some me)
    (hpeer : l.screens.find? (Screen.pinnedTo fingerprint) = some peer)
    (hfree : ∀ s ∈ l.screens, (s.x, s.y) = me.beside side → s.pinnedTo fingerprint = true) :
    ∃ placed, l.placePeer fingerprint side = .ok placed := by
  have hpinned : l.screens.any (Screen.pinnedTo fingerprint) = true :=
    List.any_eq_true.mpr ⟨peer, List.mem_of_find?_eq_some hpeer, List.find?_some hpeer⟩
  simp only [placePeer, hme, hpinned, if_true]
  rw [if_neg]
  · exact ⟨_, rfl⟩
  · rw [List.any_eq_true]
    rintro ⟨s, hs, htaken⟩
    simp only [Bool.and_eq_true, Bool.not_eq_true', decide_eq_true_eq] at htaken
    rw [hfree s hs (Prod.ext htaken.1.2 htaken.2)] at htaken
    exact absurd htaken.1.1 (by simp)

/-- **When a placement is right**: exactly if the step fits and the place is the peer's alone. -/
lemma placementRight_iff (hv : l.Valid) (fingerprint : String) (side : Edge) :
    l.PlacementRight fingerprint side ↔ l.PlacementFits fingerprint side := by
  constructor
  · rintro ⟨result, hresult, hright⟩ me hme
    obtain ⟨hfits, hplaced⟩ := placePeerChecked_some.mp hresult
    refine ⟨hfits me hme, fun peer hpeer hfree => ?_⟩
    obtain ⟨placed, hok⟩ := placePeer_of_free hme hpeer hfree
    obtain ⟨hvalid, id, peer', hself, hpeer', hneighbor⟩ :=
      hright placed (hplaced.symm.trans hok)
    obtain rfl := Option.some.inj (hpeer.symm.trans hpeer')
    obtain ⟨-, hsame, k, m, hscreens, hmoved⟩ := placed_screens hme hpeer hok
    rw [validate_ok] at hvalid
    refine ⟨?_, (placed_valid_iff hv hscreens hmoved hsame).mp hvalid⟩
    rintro rfl
    rw [hsame, (me_some.mp hme).1, Option.some.injEq] at hself
    refine neighborForEdge_ne hvalid (neighborForEdgeChecked_some.mp hneighbor).2 ?_
    exact hself
  · intro hfits
    refine ⟨_, placePeerChecked_some.mpr ⟨fun me hme => (hfits me hme).1, rfl⟩,
      fun placed hplaced => ?_⟩
    obtain ⟨me, hme, peer, hpeer⟩ : ∃ me, l.me = some me ∧
        ∃ peer, l.screens.find? (Screen.pinnedTo fingerprint) = some peer := by
      rcases hme : l.me with _ | me
      · simp [placePeer, hme] at hplaced
      · refine ⟨me, rfl, ?_⟩
        rw [← Option.isSome_iff_exists, List.find?_isSome]
        simp only [placePeer, hme] at hplaced
        split_ifs at hplaced with _ hpinned
        exact List.any_eq_true.mp hpinned
    obtain ⟨hfree, hself, k, m, hscreens, hmoved⟩ := placed_screens hme hpeer hplaced
    obtain ⟨hstep, halone⟩ := hfits me hme
    obtain ⟨hne, hat⟩ := halone peer hpeer hfree
    have hvalid := (placed_valid_iff hv hscreens hmoved hself).mpr hat
    obtain ⟨hid, hscreen⟩ := me_some.mp hme
    have hme' : me ∈ placed.screens := by
      have hmem := (screen_some hscreen).1
      rw [hscreens, List.mem_append, List.mem_cons] at hmem
      rw [hmoved, List.mem_append, List.mem_cons]
      exact hmem.imp_right fun h => .inr (h.resolve_left (Ne.symm hne))
    refine ⟨validate_ok.mpr hvalid, me.id, peer, hself.trans hid, hpeer,
      neighborForEdgeChecked_some.mpr ⟨fun s hs => ?_, ?_⟩⟩
    · obtain rfl := Option.some.inj ((screen_of_mem hvalid.ids hme').symm.trans hs)
      exact hstep
    · have hbeside := beside_eq me side
      refine (neighborForEdge_some hvalid).mpr
        ⟨me, hme', peer.moveTo (me.beside side).1 (me.beside side).2, ?_, rfl, rfl, ?_, ?_⟩
      · rw [hmoved]
        simp
      · exact congrArg Prod.fst hbeside
      · exact congrArg Prod.snd hbeside

end

/-- **When the arithmetic of a layout is right.** On a layout that `validate` accepts, a neighbour
is computed, one step away and symmetric exactly if the step from the screen does not overflow; and
a placement is computed and leaves a valid layout with the peer on the side exactly if the step from
this machine's screen does not overflow and, unless a screen of others is in the way, the peer's
first screen is not this machine's and no second one of the peer is there. -/
theorem arithmetic_right_iff (l : Layout) (hv : l.validate = .ok ()) (a : ScreenId) (edge : Edge)
    (fingerprint : String) (side : Edge) :
    (l.NeighborRight a edge ↔ l.NeighborFits a edge) ∧
      (l.PlacementRight fingerprint side ↔ l.PlacementFits fingerprint side) :=
  ⟨neighborRight_iff (validate_ok.mp hv) a edge,
    placementRight_iff (validate_ok.mp hv) fingerprint side⟩

/-! ### Layouts at the limits -/

/-- Two screens side by side. -/
def sideBySide (x : Int32) : Layout where
  screens :=
    [⟨⟨1⟩, "desk", x, 0, 1920, 1080, none⟩, ⟨⟨2⟩, "couch", x - 1, 0, 1920, 1080, some "ab"⟩]
  selfScreen := some ⟨1⟩

theorem side_by_side_right : (sideBySide 0).validate = .ok () ∧
    (sideBySide 0).NeighborRight ⟨1⟩ .left ∧ (sideBySide 0).PlacementRight "ab" .top := by
  have hv : (sideBySide 0).validate = .ok () := by decide
  obtain ⟨hneighbor, hplacement⟩ := arithmetic_right_iff (sideBySide 0) hv ⟨1⟩ .left "ab" .top
  refine ⟨hv, hneighbor.mpr fun s hs => ?_, hplacement.mpr fun me hme => ?_⟩
  · obtain rfl := Option.some.inj hs
    decide
  · obtain rfl := Option.some.inj hme
    refine ⟨by decide, fun peer hpeer _ => ?_⟩
    obtain rfl := Option.some.inj hpeer
    exact ⟨by decide, by decide⟩

/-- A peer with two screens, one on each side of this machine's. -/
def bothSides : Layout where
  screens :=
    [⟨⟨1⟩, "desk", 0, 0, 1920, 1080, none⟩, ⟨⟨2⟩, "couch", 1, 0, 1920, 1080, some "ab"⟩,
      ⟨⟨3⟩, "couch", -1, 0, 1920, 1080, some "ab"⟩]
  selfScreen := some ⟨1⟩

/-- The layout that the placement makes of it. -/
def onTop : Layout where
  screens :=
    [⟨⟨1⟩, "desk", 0, 0, 1920, 1080, none⟩, ⟨⟨2⟩, "couch", -1, 0, 1920, 1080, some "ab"⟩,
      ⟨⟨3⟩, "couch", -1, 0, 1920, 1080, some "ab"⟩]
  selfScreen := some ⟨1⟩

/-- At the limit of `i32` both computations overflow, and a screen of a peer is placed on top of its
other one. -/
theorem limit_overflows :
    ((sideBySide Int32.maxValue).validate = .ok () ∧
      ¬(sideBySide Int32.maxValue).NeighborRight ⟨1⟩ .right ∧
      ¬(sideBySide Int32.maxValue).PlacementRight "ab" .right) ∧
    bothSides.validate = .ok () ∧ bothSides.placePeerChecked "ab" .left = some (.ok onTop) ∧
      onTop.validate ≠ .ok () ∧ ¬bothSides.PlacementRight "ab" .left := by
  have hneighbor : (sideBySide Int32.maxValue).neighborForEdgeChecked ⟨1⟩ .right = none := by
    decide
  have hplacement : (sideBySide Int32.maxValue).placePeerChecked "ab" .right = none := by
    decide
  have htop : bothSides.placePeerChecked "ab" .left = some (.ok onTop) := by decide
  have hinvalid : onTop.validate ≠ .ok () := by decide
  refine ⟨⟨by decide, ?_, ?_⟩, by decide, htop, hinvalid, ?_⟩
  · rintro ⟨result, hresult, -⟩
    rw [hneighbor] at hresult
    cases hresult
  · rintro ⟨result, hresult, -⟩
    rw [hplacement] at hresult
    cases hresult
  · rintro ⟨result, hresult, hright⟩
    rw [htop, Option.some.injEq] at hresult
    exact hinvalid (hright onTop hresult.symm).1

end Layout

end TheKvm

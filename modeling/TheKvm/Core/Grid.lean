import TheKvm.Core.Layout

/-!
What `validate` promises, and the grid of a valid layout.

Ids and positions are unique, so looking a screen up by id or by position finds the one
screen that has it, a neighbour is another screen, and the way back leads home.
-/

namespace TheKvm

namespace Layout

/-- What `validate` accepts. -/
structure Valid (l : Layout) : Prop where
  bounded : l.screens.length ≤ 64
  named : ∀ s ∈ l.screens, Text.trim s.name ≠ ""
  sized : ∀ s ∈ l.screens, 0 < s.width ∧ 0 < s.height
  ids : (l.screens.map (·.id)).Nodup
  positions : (l.screens.map fun s => (s.x, s.y)).Nodup
  self : ∀ id, l.selfScreen = some id → id ∈ l.screens.map (·.id)

/-- What the loop of `validate` checks of the screens still to come. -/
structure Fresh (ids : List ScreenId) (positions : List (Int32 × Int32))
    (screens : List Screen) : Prop where
  named : ∀ s ∈ screens, Text.trim s.name ≠ ""
  sized : ∀ s ∈ screens, 0 < s.width ∧ 0 < s.height
  newIds : ∀ s ∈ screens, s.id ∉ ids
  ids : (screens.map (·.id)).Nodup
  newPositions : ∀ s ∈ screens, (s.x, s.y) ∉ positions
  positions : (screens.map fun s => (s.x, s.y)).Nodup

lemma fresh_cons {ids : List ScreenId} {positions : List (Int32 × Int32)} {s : Screen}
    {rest : List Screen} :
    Fresh ids positions (s :: rest) ↔
      Text.trim s.name ≠ "" ∧ (0 < s.width ∧ 0 < s.height) ∧ s.id ∉ ids ∧
        (s.x, s.y) ∉ positions ∧ Fresh (s.id :: ids) ((s.x, s.y) :: positions) rest := by
  constructor
  · rintro ⟨hn, hw, hi, hid, hp, hps⟩
    simp only [List.map_cons, List.nodup_cons, List.mem_map, not_exists, not_and] at hid hps
    refine ⟨hn s (by simp), hw s (by simp), hi s (by simp), hp s (by simp), ?_⟩
    exact
      { named := fun t ht => hn t (by simp [ht])
        sized := fun t ht => hw t (by simp [ht])
        newIds := fun t ht => by
          simpa [hi t (by simp [ht])] using hid.1 t ht
        ids := hid.2
        newPositions := fun t ht => by
          rw [List.mem_cons, not_or]
          exact ⟨hps.1 t ht, hp t (by simp [ht])⟩
        positions := hps.2 }
  · rintro ⟨hn, hw, hi, hp, h⟩
    exact
      { named := by simpa using ⟨hn, h.named⟩
        sized := by simpa using ⟨hw, h.sized⟩
        newIds := fun t ht => by
          rcases List.mem_cons.mp ht with rfl | ht
          · exact hi
          · exact fun hc => h.newIds t ht (List.mem_cons_of_mem _ hc)
        ids := by
          rw [List.map_cons, List.nodup_cons, List.mem_map]
          refine ⟨?_, h.ids⟩
          rintro ⟨t, ht, he⟩
          exact h.newIds t ht (by rw [he]; exact List.mem_cons_self)
        newPositions := fun t ht => by
          rcases List.mem_cons.mp ht with rfl | ht
          · exact hp
          · exact fun hc => h.newPositions t ht (List.mem_cons_of_mem _ hc)
        positions := by
          rw [List.map_cons, List.nodup_cons, List.mem_map]
          refine ⟨?_, h.positions⟩
          rintro ⟨t, ht, he⟩
          exact h.newPositions t ht (by rw [he]; exact List.mem_cons_self) }

lemma validateScreens_ok {ids ids' : List ScreenId} {positions : List (Int32 × Int32)}
    {screens : List Screen} :
    validateScreens ids positions screens = .ok ids' ↔
      Fresh ids positions screens ∧ ids' = (screens.map (·.id)).reverse ++ ids := by
  induction screens generalizing ids positions with
  | nil =>
    have hf : Fresh ids positions [] := by constructor <;> simp
    simp [validateScreens, hf, eq_comm]
  | cons s rest ih =>
    rw [fresh_cons, validateScreens]
    split_ifs with hn hw hi hp
    · simp [hn]
    · simp only [false_iff]
      rintro ⟨⟨-, hw', -⟩, -⟩
      omega
    · simp [hi]
    · simp [hp]
    · rw [ih]
      have hw' : 0 < s.width ∧ 0 < s.height := by omega
      simp [hn, hw', hi, hp]

/-- **`validate` accepts exactly the valid layouts.** -/
theorem validate_ok {l : Layout} : l.validate = .ok () ↔ l.Valid := by
  have key : ∀ ids, validateScreens [] [] l.screens = .ok ids ↔
      Fresh [] [] l.screens ∧ ids = (l.screens.map (·.id)).reverse := fun ids => by
    have h : validateScreens [] [] l.screens = .ok ids ↔
      Fresh [] [] l.screens ∧ ids = (l.screens.map (·.id)).reverse ++ [] := validateScreens_ok
    rwa [List.append_nil] at h
  unfold validate
  constructor
  · intro h
    split_ifs at h with hlen
    rcases hv : validateScreens [] [] l.screens with message | ids
    · simp [hv] at h
    · obtain ⟨hf, rfl⟩ := (key ids).mp hv
      refine ⟨by omega, hf.named, hf.sized, hf.ids, hf.positions, fun id hid => ?_⟩
      rw [hv, hid] at h
      by_contra hc
      simp [hc] at h
  · intro h
    have hf : Fresh [] [] l.screens :=
      ⟨h.named, h.sized, by simp, h.ids, by simp, h.positions⟩
    rw [if_neg (Nat.not_lt.mpr h.bounded), (key _).mpr ⟨hf, rfl⟩]
    rcases hs : l.selfScreen with _ | id
    · rfl
    · have := h.self id hs
      simp only [List.mem_reverse]
      rw [if_pos this]

/-! ### Looking screens up -/

lemma screen_some {l : Layout} {id : ScreenId} {s : Screen} (h : l.screen id = some s) :
    s ∈ l.screens ∧ s.id = id :=
  ⟨List.mem_of_find?_eq_some h, by simpa using List.find?_some h⟩

lemma screen_isSome {l : Layout} {id : ScreenId} :
    (∃ s, l.screen id = some s) ↔ id ∈ l.screens.map (·.id) := by
  rw [← Option.isSome_iff_exists, screen, List.find?_isSome]
  simp

lemma screen_of_mem {l : Layout} (h : (l.screens.map (·.id)).Nodup) {s : Screen}
    (hs : s ∈ l.screens) : l.screen s.id = some s := by
  obtain ⟨t, ht⟩ := screen_isSome.mpr (List.mem_map_of_mem hs : s.id ∈ l.screens.map (·.id))
  obtain ⟨htm, hid⟩ := screen_some ht
  rw [ht, List.inj_on_of_nodup_map h htm hs hid]

lemma find_position_of_mem {l : Layout} (h : (l.screens.map fun s => (s.x, s.y)).Nodup)
    {s : Screen} (hs : s ∈ l.screens) :
    l.screens.find? (fun t => t.x = s.x ∧ t.y = s.y) = some s := by
  obtain ⟨t, ht⟩ : ∃ t, l.screens.find? (fun t => t.x = s.x ∧ t.y = s.y) = some t := by
    rw [← Option.isSome_iff_exists, List.find?_isSome]
    exact ⟨s, hs, by simp⟩
  have hp : t.x = s.x ∧ t.y = s.y := by simpa using List.find?_some ht
  rw [ht, List.inj_on_of_nodup_map h (List.mem_of_find?_eq_some ht) hs (by simp [hp])]

/-! ### Neighbours -/

/-- The grid offset of a neighbour. -/
def offset : Edge → Int32 × Int32
  | .left => (-1, 0)
  | .right => (1, 0)
  | .top => (0, -1)
  | .bottom => (0, 1)

/-- A neighbour is the screen one position further. -/
lemma neighborForEdge_some {l : Layout} (h : l.Valid) {a b : ScreenId} {edge : Edge} :
    l.neighborForEdge a edge = some b ↔
      ∃ s ∈ l.screens, ∃ t ∈ l.screens, s.id = a ∧ t.id = b ∧
        t.x = s.x + (offset edge).1 ∧ t.y = s.y + (offset edge).2 := by
  have hoff : l.neighborForEdge a edge = (l.screen a).bind fun mine =>
      (l.screens.find? fun s => s.x = mine.x + (offset edge).1 ∧
        s.y = mine.y + (offset edge).2).map (·.id) := by
    unfold neighborForEdge
    split
    · next hs => rw [screen, hs]; rfl
    · next mine hs => rw [screen, hs]; cases edge <;> rfl
  rw [hoff, Option.bind_eq_some_iff]
  constructor
  · rintro ⟨s, hs, hb⟩
    obtain ⟨t, ht, rfl⟩ := Option.map_eq_some_iff.mp hb
    have hp := List.find?_some ht
    simp only [decide_eq_true_eq] at hp
    exact ⟨s, (screen_some hs).1, t, List.mem_of_find?_eq_some ht, (screen_some hs).2, rfl, hp⟩
  · rintro ⟨s, hs, t, ht, rfl, rfl, hx, hy⟩
    refine ⟨s, screen_of_mem h.ids hs, ?_⟩
    rw [← hx, ← hy, find_position_of_mem h.positions ht]
    rfl

lemma offset_opposite (x y : Int32) (edge : Edge) :
    x = x + (offset edge).1 + (offset edge.opposite).1 ∧
      y = y + (offset edge).2 + (offset edge.opposite).2 := by
  cases edge <;> simp [offset, Edge.opposite] <;> grind

/-- **The way back**: the grid is symmetric. -/
theorem neighborForEdge_opposite {l : Layout} (h : l.Valid) {a b : ScreenId} {edge : Edge}
    (hn : l.neighborForEdge a edge = some b) :
    l.neighborForEdge b edge.opposite = some a := by
  obtain ⟨s, hs, t, ht, rfl, rfl, hx, hy⟩ := (neighborForEdge_some h).mp hn
  have hback := offset_opposite s.x s.y edge
  exact (neighborForEdge_some h).mpr
    ⟨t, ht, s, hs, rfl, rfl, by rw [hx]; exact hback.1, by rw [hy]; exact hback.2⟩

/-- A neighbour is another screen. -/
lemma neighborForEdge_ne {l : Layout} (h : l.Valid) {a b : ScreenId} {edge : Edge}
    (hn : l.neighborForEdge a edge = some b) : b ≠ a := by
  rintro rfl
  obtain ⟨s, hs, t, ht, hid, rfl, hx, hy⟩ := (neighborForEdge_some h).mp hn
  obtain rfl := List.inj_on_of_nodup_map h.ids hs ht hid
  cases edge <;> simp [offset] at hx hy

lemma neighborForEdge_mem {l : Layout} (h : l.Valid) {a b : ScreenId} {edge : Edge}
    (hn : l.neighborForEdge a edge = some b) : b ∈ l.screens.map (·.id) := by
  obtain ⟨s, hs, t, ht, -, rfl, -⟩ := (neighborForEdge_some h).mp hn
  exact List.mem_map_of_mem ht

/-! ### The lone peer -/

lemma singlePeerFrom_mem {found : Option ScreenId} {screens : List Screen} {id : ScreenId}
    (h : singlePeerFrom found screens = some id) :
    found = some id ∨ id ∈ screens.map (·.id) := by
  induction screens generalizing found with
  | nil => exact Or.inl h
  | cons s rest ih =>
    rw [singlePeerFrom] at h
    split_ifs at h with hp hf
    · rcases ih h with he | hm
      · exact Or.inr (by simp [Option.some.inj he])
      · exact Or.inr (by simp [hm])
    · rcases ih h with he | hm
      · exact Or.inl he
      · exact Or.inr (by simp [hm])

lemma singlePeerScreen_mem {l : Layout} {id : ScreenId} (h : l.singlePeerScreen = some id) :
    id ∈ l.screens.map (·.id) := by
  rcases singlePeerFrom_mem h with hc | hm
  · cases hc
  · exact hm

/-- A crossing leads through a neighbour or, off a horizontal edge of a double link, to the
lone peer. -/
lemma crossingTargetFor_some {l : Layout} {me target : ScreenId} {edge : Edge}
    {edgeMode : EdgeMode} (h : l.crossingTargetFor me edge edgeMode = some target) :
    l.neighborForEdge me edge = some target ∨
      (edgeMode = .double ∧ edge.horizontal ∧ l.singlePeerScreen = some target ∧
        target ≠ me) := by
  unfold crossingTargetFor at h
  split at h
  · exact Or.inl (by rw [← h]; assumption)
  · split_ifs at h with hd
    split at h
    · cases h
    · next peer hp =>
      split_ifs at h with hne
      obtain rfl := Option.some.inj h
      exact Or.inr ⟨hd.1, hd.2, hp, hne⟩

lemma crossingTargetFor_mem {l : Layout} (hv : l.Valid) {me target : ScreenId} {edge : Edge}
    {edgeMode : EdgeMode} (h : l.crossingTargetFor me edge edgeMode = some target) :
    target ∈ l.screens.map (·.id) ∧ target ≠ me := by
  rcases crossingTargetFor_some h with hn | ⟨-, -, hp, hne⟩
  · exact ⟨neighborForEdge_mem hv hn, neighborForEdge_ne hv hn⟩
  · exact ⟨singlePeerScreen_mem hp, hne⟩

/-! ### Resizing a screen -/

section ModifyFirst

variable {α β : Type*} {p : α → Bool} {f : α → α}

lemma map_modifyFirst {g : α → β} (hg : ∀ a, g (f a) = g a) (l : List α) :
    (modifyFirst p f l).map g = l.map g := by
  induction l with
  | nil => rfl
  | cons a l ih =>
    unfold modifyFirst
    split_ifs
    · simp [hg]
    · simp [ih]

lemma forall_modifyFirst {P : α → Prop} (hf : ∀ a, P a → P (f a)) {l : List α}
    (h : ∀ a ∈ l, P a) : ∀ a ∈ modifyFirst p f l, P a := by
  induction l with
  | nil => simp [modifyFirst]
  | cons a l ih =>
    have ha := h a (by simp)
    have hl := ih fun b hb => h b (by simp [hb])
    unfold modifyFirst
    split_ifs
    · simpa [hf a ha] using fun b hb => h b (by simp [hb])
    · simpa [ha] using hl

lemma find_modifyFirst_self (hp : ∀ a, p (f a) = p a) (l : List α) :
    (modifyFirst p f l).find? p = (l.find? p).map f := by
  induction l with
  | nil => rfl
  | cons a l ih =>
    unfold modifyFirst
    by_cases h : p a
    · simp [h, hp]
    · simpa [h] using ih

lemma find_modifyFirst_other {q : α → Bool} (hq : ∀ a, q (f a) = q a)
    (hpq : ∀ a, p a → q a = false) (l : List α) :
    (modifyFirst p f l).find? q = l.find? q := by
  induction l with
  | nil => rfl
  | cons a l ih =>
    unfold modifyFirst
    by_cases h : p a
    · simp [h, hq, hpq a h]
    · by_cases hqa : q a
      · simp [h, hqa]
      · simpa [h, hqa] using ih

end ModifyFirst

section Resized

@[simp] lemma resize_id (s : Screen) (width height : ℕ) : (s.resize width height).id = s.id := rfl

variable {l : Layout} (id : ScreenId) (width height : ℕ)

lemma map_resized {β : Type*} {g : Screen → β} (hg : ∀ s, g (s.resize width height) = g s) :
    (l.resized id width height).screens.map g = l.screens.map g :=
  map_modifyFirst hg l.screens

lemma resized_valid (hv : l.Valid) (hw : 0 < width ∧ 0 < height) :
    (l.resized id width height).Valid := by
  have hids : (l.resized id width height).screens.map (·.id) = l.screens.map (·.id) :=
    map_resized id width height fun _ => rfl
  have hpos : ((l.resized id width height).screens.map fun s => (s.x, s.y)) =
      l.screens.map fun s => (s.x, s.y) :=
    map_resized id width height fun _ => rfl
  have hlen := congrArg List.length hids
  rw [List.length_map, List.length_map] at hlen
  have hnamed := forall_modifyFirst (P := fun s : Screen => Text.trim s.name ≠ "")
    (p := fun s => s.id = id) (f := fun s => s.resize width height) (fun _ hs => by exact hs)
    hv.named
  have hsized := forall_modifyFirst (P := fun s : Screen => 0 < s.width ∧ 0 < s.height)
    (p := fun s => s.id = id) (f := fun s => s.resize width height) (fun _ _ => hw) hv.sized
  exact ⟨hlen ▸ hv.bounded, hnamed, hsized, hids ▸ hv.ids, hpos ▸ hv.positions,
    fun j hj => hids ▸ hv.self j hj⟩

lemma screen_resized : (l.resized id width height).screen id =
    (l.screen id).map (·.resize width height) := by
  have h := find_modifyFirst_self (p := fun s : Screen => s.id = id)
    (f := fun s => s.resize width height) (fun _ => rfl) l.screens
  exact h

lemma screen_resized_ne {j : ScreenId} (hj : j ≠ id) :
    (l.resized id width height).screen j = l.screen j := by
  have h := find_modifyFirst_other (p := fun s : Screen => s.id = id) (q := fun s => s.id = j)
    (f := fun s => s.resize width height) (fun _ => rfl) (fun s hs => by
      simp only [decide_eq_true_eq] at hs
      simpa [hs] using Ne.symm hj) l.screens
  exact h

end Resized

/-- A successful resize is of a screen in the layout, to a size that is not empty. -/
lemma setScreenSize_true {l l' : Layout} {id : ScreenId} {width height : ℕ}
    (h : l.setScreenSize id width height = (l', true)) :
    0 < width ∧ 0 < height ∧ (∃ s, l.screen id = some s) ∧ l' = l.resized id width height := by
  unfold setScreenSize at h
  split_ifs at h with h0
  · cases h
  · split at h
    · cases h
    · next s hs => exact ⟨by omega, by omega, ⟨s, hs⟩, (Prod.mk.inj h).1.symm⟩

end Layout

end TheKvm

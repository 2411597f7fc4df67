import TheKvm.Core.Machine
import TheKvm.Core.Desk

/-!
The router refines the desk.

Every operation is one step of the desk, and the condition under which that step keeps the
cursors on their screens is `LandsInside`: two operations can miss a screen, a crossing
through the top or the bottom into a pinned edge, and a peer whose fingerprint is that of
the local screen.
-/

namespace TheKvm

namespace EdgeRouter

def desk (r : EdgeRouter) : Desk where
  layout := r.layout
  localScreen := r.localScreen
  current := r.currentScreen
  active := r.activeRemote
  cursor := r.cursorPosition
  home := r.localCursorPosition

/-- The condition under which an operation leaves both cursors on their screens. -/
def LandsInside (r : EdgeRouter) : Op → Prop
  | .route now (.mouseMove dx dy) =>
    r.activeRemote = none → ∀ screen edge target targetScreen,
      r.layout.screen r.currentScreen = some screen → r.exitEdge screen dx dy = some edge →
      r.gate now edge = .ok target →
      edgePushPx ≤ r.savedPush screen edge (r.overflow screen edge dx dy) →
      r.layout.screen target = some targetScreen →
      edge.horizontal ∨ r.doubleStyle = .mirror ∨
        mapCoordinate r.cursorX screen.width targetScreen.width < targetScreen.height
  | .adoptPeerScreenSize fingerprint width height =>
    0 < width → 0 < height → ∀ peer,
      r.layout.screens.find? (fun screen => screen.peerFingerprint = some fingerprint) =
        some peer →
      peer.id = r.localScreen → r.localCursorX < width ∧ r.localCursorY < height
  | _ => True

/-- What an operation does to the desk. -/
def Refines (r r' : EdgeRouter) (op : Op) : Prop :=
  ∃ safe, r.desk.Step r'.desk safe ∧ (safe ↔ r.LandsInside op)

variable {r r' : EdgeRouter}

/-! ### Coordinates -/

lemma mapCoordinate_lt (value sourceSpan : ℕ) {targetSpan : ℕ} (h : 0 < targetSpan) :
    mapCoordinate value sourceSpan targetSpan < targetSpan := by
  unfold mapCoordinate
  split_ifs with hs
  · exact h
  · have hle : min value (sourceSpan - 1) * (targetSpan - 1) / (sourceSpan - 1) ≤
        targetSpan - 1 := by
      refine Nat.div_le_of_le_mul ?_
      exact Nat.mul_le_mul_right _ (min_le_right _ _)
    omega

lemma exitEdge_none {screen : Screen} {dx dy : Int32} (h : r.exitEdge screen dx dy = none) :
    (0 ≤ r.nextX dx ∧ r.nextX dx < screen.width) ∧
      (0 ≤ r.nextY dy ∧ r.nextY dy < screen.height) := by
  unfold exitEdge edgeForOverflow at h
  split_ifs at h
  omega

/-- A cursor pinned to a screen is on it. -/
lemma clamp_lt (v : ℤ) {span : ℕ} (h : 0 < span) :
    (min (max v 0) ((span : ℤ) - 1)).toNat < span := by
  omega

end EdgeRouter

namespace Layout

lemma Valid.size {l : Layout} (h : l.Valid) {id : ScreenId} {s : Screen}
    (hs : l.screen id = some s) : 0 < s.width ∧ 0 < s.height :=
  h.sized s (screen_some hs).1

lemma Valid.holds {l : Layout} (h : l.Valid) {id : ScreenId} {s : Screen}
    (hs : l.screen id = some s) (x y : ℕ) :
    l.Holds id (min x (s.width - 1), min y (s.height - 1)) := by
  have hw := h.size hs
  refine ⟨s, hs, ?_, ?_⟩ <;> simp only <;> omega

end Layout

namespace EdgeRouter

variable {r r' : EdgeRouter}

/-! ### Steps of the desk -/

lemma refines_stay {op : Op} (hd : r'.desk = r.desk) (hop : r.LandsInside op) :
    r.Refines r' op :=
  ⟨True, hd ▸ .stay, iff_of_true trivial hop⟩

/-- Motion of the local cursor, and every way home. -/
lemma refines_home {op : Op} {x y : ℕ} (hp : r.layout.Holds r.localScreen (x, y))
    (hd : r'.desk = { r.desk with
      current := r.localScreen, active := none, cursor := (x, y), home := (x, y) })
    (hop : r.LandsInside op) : r.Refines r' op :=
  ⟨True, hd ▸ .comeHome (x, y) hp, iff_of_true trivial hop⟩

/-- While control is local both cursors move together. -/
lemma refines_local {op : Op} {x y : ℕ} (hl : r.desk.Linked) (hn : r.activeRemote = none)
    (hp : r.layout.Holds r.localScreen (x, y))
    (hd : r'.desk = { r.desk with cursor := (x, y), home := (x, y) })
    (hop : r.LandsInside op) : r.Refines r' op := by
  have hc : r.currentScreen = r.localScreen := hl.home_iff.mp hn
  refine refines_home hp ?_ hop
  rw [hd]
  simp only [desk, hc, hn]

lemma refines_move {op : Op} {x y : ℕ} (hp : r.layout.Holds r.currentScreen (x, y))
    (ha : r.activeRemote ≠ none) (hd : r'.desk = { r.desk with cursor := (x, y) })
    (hop : r.LandsInside op) : r.Refines r' op :=
  ⟨True, hd ▸ .move (x, y) hp ha, iff_of_true trivial hop⟩

/-! ### Coming home -/

lemma restoreLocalAtEdge_home (now : Instant) {source : ScreenId} (edge : Edge)
    (hv : r.layout.Valid) (ha : r.activeRemote = some source) {screen : Screen}
    (hs : r.layout.screen r.localScreen = some screen) :
    ∃ x y, r.layout.Holds r.localScreen (x, y) ∧
      (r.restoreLocalAtEdge now source edge).1 =
        { (r.landLocal x y).clearDrive with
          postReturnEdge := some (r.landingEdge edge), postReturnAt := some now } := by
  exact ⟨_, _, hv.holds hs _ _, restoreLocalAtEdge_eq now edge ha hs⟩

lemma restoreLocalAtEdge_desk (now : Instant) {source : ScreenId} (edge : Edge)
    (hv : r.layout.Valid) (ha : r.activeRemote = some source) {screen : Screen}
    (hs : r.layout.screen r.localScreen = some screen) :
    ∃ x y, r.layout.Holds r.localScreen (x, y) ∧
      (r.restoreLocalAtEdge now source edge).1.desk = { r.desk with
        current := r.localScreen, active := none, cursor := (x, y), home := (x, y) } := by
  obtain ⟨x, y, hp, he⟩ := restoreLocalAtEdge_home now edge hv ha hs
  exact ⟨x, y, hp, by rw [he]; rfl⟩

/-- A refusal changes nothing; a return lands on the local screen. -/
lemma refines_return {op : Op} (source : ScreenId) (hop : r.LandsInside op) (hv : r.layout.Valid)
    (hl : ∃ s, r.layout.screen r.localScreen = some s)
    (h : ∀ screen, r.activeRemote = some source → r.layout.screen r.localScreen = some screen →
      ∃ x y, r'.desk = { r.desk with
        current := r.localScreen, active := none
        cursor := (min x (screen.width - 1), min y (screen.height - 1))
        home := (min x (screen.width - 1), min y (screen.height - 1)) })
    (hno : r.activeRemote ≠ some source → r' = r) : r.Refines r' op := by
  by_cases ha : r.activeRemote = some source
  · obtain ⟨screen, hs⟩ := hl
    obtain ⟨x, y, hd⟩ := h screen ha hs
    exact refines_home (hv.holds hs x y) hd hop
  · exact refines_stay (by rw [hno ha]) hop

lemma returnToLocal_refines (hl : r.desk.Linked) (source : ScreenId) (x y : ℕ) :
    r.Refines (r.returnToLocal source x y).1 (.returnToLocal source x y) := by
  refine refines_return source trivial hl.valid hl.localIn ?_ ?_
  · intro screen ha hs
    unfold returnToLocal
    simp only [ha, hs, ne_eq, not_true_eq_false, if_false]
    exact ⟨x, y, rfl⟩
  · intro ha
    unfold returnToLocal
    rw [if_pos ha]

lemma restoreLocal_refines (hl : r.desk.Linked) (source : ScreenId) :
    r.Refines (r.restoreLocal source).1 (.restoreLocal source) := by
  refine refines_return source trivial hl.valid hl.localIn ?_ ?_
  · intro screen ha hs
    unfold restoreLocal
    simp only [ha, hs, ne_eq, not_true_eq_false, if_false]
    exact ⟨_, _, rfl⟩
  · intro ha
    unfold restoreLocal
    rw [if_pos ha]

lemma restoreLocalAtEdge_refines (hl : r.desk.Linked) (now : Instant) (source : ScreenId)
    (edge : Edge) :
    r.Refines (r.restoreLocalAtEdge now source edge).1 (.restoreLocalAtEdge now source edge) := by
  by_cases ha : r.activeRemote = some source
  · obtain ⟨screen, hs⟩ := hl.localIn
    obtain ⟨x, y, hp, hd⟩ := restoreLocalAtEdge_desk now edge hl.valid ha hs
    exact refines_home hp hd trivial
  · refine refines_stay ?_ trivial
    unfold restoreLocalAtEdge
    rw [if_pos ha]

/-- A handoff request takes the cursor home or to the screen it names. -/
lemma handoffTo_refines (hl : r.desk.Linked) (now : Instant) (target : ScreenId) (x y : ℕ) :
    r.Refines (r.handoffTo now target x y).1 (.handoffTo now target x y) := by
  unfold handoffTo
  rcases ht : r.layout.screen target with _ | targetScreen
  · exact refines_stay rfl trivial
  have hp := hl.valid.holds ht x y
  simp only
  by_cases hloc : r.localScreen = target
  · rw [if_pos hloc]
    exact refines_home (hloc ▸ hp) rfl trivial
  · rw [if_neg hloc]
    refine ⟨_, ?_, iff_of_true hp trivial⟩
    have hstep := Desk.Step.leave (d := r.desk) target
      (min x (targetScreen.width - 1), min y (targetScreen.height - 1)) (Ne.symm hloc) hp.column
    have hiff : r.desk.active = none ↔ r.currentScreen = r.localScreen := hl.home_iff
    by_cases ha : r.currentScreen = r.localScreen
    · simp only [if_pos ha]
      rw [if_pos (hiff.mpr ha)] at hstep
      exact hstep
    · simp only [if_neg ha]
      rw [if_neg (mt hiff.mp ha)] at hstep
      exact hstep

/-! ### Arrangement, seeding and truth -/

/-- Resizing screens keeps a layout valid. -/
lemma map_valid {l : Layout} (hv : l.Valid) {f : Screen → Screen}
    (hf : ∀ s ∈ l.screens, ∃ width height, f s = s.resize width height ∧ 0 < width ∧ 0 < height) :
    ({ l with screens := l.screens.map f } : Layout).Valid := by
  have hids : (l.screens.map f).map (·.id) = l.screens.map (·.id) := by
    rw [List.map_map]
    refine List.map_congr_left fun s hs => ?_
    obtain ⟨width, height, he, -⟩ := hf s hs
    simp [he]
  have hpos : ((l.screens.map f).map fun s => (s.x, s.y)) = l.screens.map fun s => (s.x, s.y) := by
    rw [List.map_map]
    refine List.map_congr_left fun s hs => ?_
    obtain ⟨width, height, he, -⟩ := hf s hs
    simp [he, Screen.resize]
  have hmem : ∀ t ∈ l.screens.map f,
      ∃ s ∈ l.screens, ∃ width height, t = s.resize width height ∧ 0 < width ∧ 0 < height := by
    intro t ht
    obtain ⟨s, hs, rfl⟩ := List.mem_map.mp ht
    exact ⟨s, hs, hf s hs⟩
  refine ⟨by simpa using hv.bounded, ?_, ?_, hids ▸ hv.ids, hpos ▸ hv.positions,
    fun id hid => hids ▸ hv.self id hid⟩
  · intro t ht
    obtain ⟨s, hs, width, height, rfl, -⟩ := hmem t ht
    exact hv.named s hs
  · intro t ht
    obtain ⟨s, hs, width, height, rfl, hw⟩ := hmem t ht
    exact hw

lemma screen_map {l : Layout} {f : Screen → Screen} (hf : ∀ s, (f s).id = s.id)
    {id : ScreenId} {s : Screen} (hs : l.screen id = some s) :
    ({ l with screens := l.screens.map f } : Layout).screen id = some (f s) := by
  unfold Layout.screen at hs ⊢
  simp only [List.find?_map, Function.comp_def, hf, hs, Option.map_some]

lemma setLayout_refines (hl : r.desk.Linked) (layout : Layout) :
    r.Refines (r.setLayout layout).1 (.setLayout layout) := by
  unfold setLayout
  rcases hval : layout.validate with message | ⟨⟨⟩⟩
  · exact refines_stay rfl trivial
  have hv : layout.Valid := Layout.validate_ok.mp hval
  simp only
  by_cases ha : r.activeRemote.isSome
  · rw [if_pos ha]
    exact refines_stay rfl trivial
  rw [if_neg ha]
  have hn : r.activeRemote = none := Option.not_isSome_iff_eq_none.mp ha
  rcases hs : layout.screen r.localScreen with _ | screen
  · simp only [Option.isNone_none, if_true]
    exact refines_stay rfl trivial
  simp only [Option.isNone_some, Bool.false_eq_true, if_false]
  have hc : ∀ s ∈ layout.screens, ∃ width height,
      carrySize r.layout s = s.resize width height ∧ 0 < width ∧ 0 < height := by
    intro s hs
    rcases ho : r.layout.screen s.id with _ | old
    · exact ⟨s.width, s.height, by simp [carrySize, ho, Screen.resize], hv.sized s hs⟩
    · exact ⟨old.width, old.height, by simp [carrySize, ho], hl.valid.size ho⟩
  have hid : ∀ s, (carrySize r.layout s).id = s.id := by
    intro s
    unfold carrySize
    split <;> rfl
  have hv' := map_valid hv hc
  have hs' := screen_map hid hs
  simp only [hs']
  exact ⟨True, .relayout (d := r.desk) _ _ hv' (hv'.holds hs' r.cursorX r.cursorY) hn,
    iff_of_true trivial trivial⟩

lemma seedPosition_refines (hl : r.desk.Linked) (x y : ℕ) (applyGate : Bool) {op : Op}
    (hop : r.LandsInside op) : r.Refines (r.seedPosition x y applyGate).1 op := by
  unfold seedPosition
  by_cases ha : r.activeRemote.isSome
  · rw [if_pos ha]
    exact refines_stay rfl hop
  · rw [if_neg ha]
    have hn : r.activeRemote = none := Option.not_isSome_iff_eq_none.mp ha
    obtain ⟨screen, hs⟩ := hl.localIn
    have hs' : r.layout.screen r.localScreen = some screen := hs
    simp only [hs']
    exact refines_local hl hn (hl.valid.holds hs x y) rfl hop

lemma resyncIfLocal_refines (hl : r.desk.Linked) (x y : ℕ) :
    r.Refines (r.resyncIfLocal x y) (.resyncIfLocal x y) := by
  by_cases hn : r.activeRemote = none
  · obtain ⟨screen, hs⟩ := hl.localIn
    have hc : r.currentScreen = r.localScreen := hl.home_iff.mp hn
    rw [resyncIfLocal_eq x y hn hc hs]
    exact refines_local hl hn (hl.valid.holds hs x y) rfl trivial
  · rw [resyncIfLocal_refused x y (Or.inl hn)]
    exact refines_stay rfl trivial

lemma adoptLocalScreenSize_refines (width height : ℕ) :
    r.Refines (r.adoptLocalScreenSize width height).1 (.adoptLocalScreenSize width height) := by
  unfold adoptLocalScreenSize
  rcases hset : r.layout.setScreenSize r.localScreen width height with ⟨layout, _ | _⟩
  · exact refines_stay rfl trivial
  obtain ⟨hw, hh, ⟨s, hs⟩, rfl⟩ := Layout.setScreenSize_true hset
  have hs' : (r.layout.resized r.localScreen width height).screen r.localScreen =
      some (s.resize width height) := by
    rw [Layout.screen_resized, hs]
    rfl
  simp only [hs']
  exact ⟨True, .resizeLocal width height ⟨hw, hh⟩, iff_of_true trivial trivial⟩

lemma adoptPeerScreenSize_refines (fingerprint : String) (width height : ℕ) :
    r.Refines (r.adoptPeerScreenSize fingerprint width height).1
      (.adoptPeerScreenSize fingerprint width height) := by
  unfold adoptPeerScreenSize
  split
  · next hp => exact refines_stay rfl fun _ _ peer h => by simp [hp] at h
  next peer hp =>
  rcases hset : r.layout.setScreenSize peer.id width height with ⟨layout, _ | _⟩
  · refine refines_stay rfl fun hw hh _ _ => ?_
    unfold Layout.setScreenSize at hset
    rw [if_neg (by omega)] at hset
    split at hset
    · next hno =>
      have := List.find?_eq_none.mp hno peer (List.mem_of_find?_eq_some hp)
      simp at this
    · simp at hset
  obtain ⟨hw, hh, ⟨s, hs⟩, rfl⟩ := Layout.setScreenSize_true hset
  have hs' : (r.layout.resized peer.id width height).screen peer.id =
      some (s.resize width height) := by
    rw [Layout.screen_resized, hs]
    rfl
  simp only [hs']
  refine ⟨peer.id = r.localScreen → r.localCursorX < width ∧ r.localCursorY < height, ?_, ?_⟩
  · have hstep := Desk.Step.resizePeer (d := r.desk) peer.id width height ⟨hw, hh⟩
    by_cases hc : r.currentScreen = peer.id
    · simp only [if_pos hc]
      rw [if_pos (show r.desk.current = peer.id from hc)] at hstep
      exact hstep
    · simp only [if_neg hc]
      rw [if_neg (show ¬r.desk.current = peer.id from hc)] at hstep
      exact hstep
  · constructor
    · intro h _ _ peer' hp' hid
      rw [hp] at hp'
      obtain rfl := Option.some.inj hp'
      exact h hid
    · intro h hid
      exact h hw hh peer hp hid

/-! ### Routing -/

@[simp] lemma clearReturnRun_desk (r : EdgeRouter) : r.clearReturnRun.desk = r.desk := rfl

@[simp] lemma shove_desk (r : EdgeRouter) (overflow : ℤ) : (r.shove overflow).desk = r.desk := rfl

@[simp] lemma creditReturn_desk (r : EdgeRouter) (now : Instant) (edge : Edge) (overflow : ℤ) :
    (r.creditReturn now edge overflow).desk = r.desk := by
  unfold creditReturn
  split_ifs <;> rfl

lemma roam_desk (r : EdgeRouter) (remote : Screen) (nextX nextY : ℤ) :
    (r.roam remote nextX nextY).desk = { r.desk with cursor := (nextX.toNat, nextY.toNat) } := by
  rw [roam_eq]
  rfl

lemma moveInside_desk (r : EdgeRouter) (screen : Screen) (nextX nextY : ℤ) :
    (r.moveInside screen nextX nextY).desk = { r.desk with
      cursor := (nextX.toNat, nextY.toNat), home := (nextX.toNat, nextY.toNat) } := by
  rw [moveInside_eq]
  rfl

/-- A motion pinned to its screen stays on it. -/
lemma holds_pinned {l : Layout} (hv : l.Valid) {id : ScreenId} {s : Screen}
    (hs : l.screen id = some s) (x y : ℤ) :
    l.Holds id ((min (max x 0) ((s.width : ℤ) - 1)).toNat,
      (min (max y 0) ((s.height : ℤ) - 1)).toNat) := by
  have hw := hv.size hs
  exact ⟨s, hs, clamp_lt x hw.1, clamp_lt y hw.2⟩

/-- A motion that overflows no edge stays on its screen. -/
lemma holds_inside {screen : Screen} (hs : r.layout.screen r.currentScreen = some screen)
    {dx dy : Int32} (h : r.exitEdge screen dx dy = none) :
    r.layout.Holds r.currentScreen ((r.nextX dx).toNat, (r.nextY dy).toNat) := by
  have hin := exitEdge_none h
  refine ⟨screen, hs, ?_, ?_⟩ <;> simp only <;> omega

lemma routeDriving_refines (hl : r.desk.Linked) {target : ScreenId}
    (ha : r.activeRemote = some target) (now : Instant) (event : InputEvent) :
    r.Refines (r.routeDriving now target event).1 (.route now event) := by
  have hne : r.activeRemote ≠ none := by simp [ha]
  have hop : r.LandsInside (.route now event) := by
    cases event <;> first | trivial | exact fun hn => absurd hn hne
  rcases event with _ | ⟨dx, dy⟩ | _ | _ | _ | _ | _
  case mouseMove =>
    obtain ⟨remote, hs, -⟩ := hl.column
    have hs' : r.layout.screen r.currentScreen = some remote := hs
    obtain ⟨screen, hloc⟩ := hl.localIn
    have home : ∀ r₁ : EdgeRouter, r₁.desk = r.desk → ∀ edge,
        r.Refines (r₁.comeHome now r.currentScreen target edge).1
          (.route now (.mouseMove dx dy)) := by
      intro r₁ hd edge
      have hl₁ : r₁.layout = r.layout := congrArg Desk.layout hd
      have ha₁ : r₁.activeRemote = some target := (congrArg Desk.active hd).trans ha
      have hs₁ : r₁.layout.screen r₁.localScreen = some screen := by
        rw [hl₁, show r₁.localScreen = r.localScreen from congrArg Desk.localScreen hd]
        exact hloc
      obtain ⟨x, y, hp, hd'⟩ := restoreLocalAtEdge_desk now edge (hl₁ ▸ hl.valid) ha₁ hs₁
      rw [hl₁, show r₁.localScreen = r.localScreen from congrArg Desk.localScreen hd] at hp
      refine refines_home hp ?_ hop
      rw [show (r₁.comeHome now r.currentScreen target edge).1 =
        (r₁.restoreLocalAtEdge now target edge).1 from rfl, hd', hd,
        show r₁.localScreen = r.localScreen from congrArg Desk.localScreen hd]
    have pinned : ∀ r₁ : EdgeRouter, r₁.desk = r.desk →
        r.Refines (r₁.pinTo (r.nextX dx) (r.nextY dy) remote.width remote.height)
          (.route now (.mouseMove dx dy)) := by
      intro r₁ hd
      refine refines_move (holds_pinned hl.valid hs (r.nextX dx) (r.nextY dy)) hne ?_ hop
      rw [← hd]
      rfl
    have hstep := routeDriving_step hs' now target dx dy
    revert hstep
    generalize r.routeDriving now target (.mouseMove dx dy) = p
    intro hstep
    cases hstep with
    | roams h => exact refines_move (holds_inside hs' h) hne (roam_desk _ _ _ _) hop
    | returns edge h hf hd hr => exact home _ (creditReturn_desk _ _ _ _) edge
    | builds edge h hf hd hr => exact pinned _ (creditReturn_desk _ _ _ _)
    | escapes edge h hf hd hr => exact home _ (shove_desk _ _) edge
    | shoves edge h hf hd hr => exact pinned _ (shove_desk _ _)
    | clamps edge h hf => exact pinned _ (clearReturnRun_desk _)
  all_goals exact refines_stay rfl hop

/-- **Where a crossing lands.** Always within the columns of the target; off it exactly when
a mapped column is used as a row. -/
lemma landing_lt (r : EdgeRouter) (screen : Screen) {targetScreen : Screen} (edge : Edge)
    (hw : 0 < targetScreen.width ∧ 0 < targetScreen.height) :
    (r.landing screen targetScreen edge).1 < targetScreen.width ∧
      ((r.landing screen targetScreen edge).2 < targetScreen.height ↔
        edge.horizontal ∨ r.doubleStyle = .mirror ∨
          mapCoordinate r.cursorX screen.width targetScreen.width < targetScreen.height) := by
  have hx := mapCoordinate_lt r.cursorX screen.width hw.1
  have hy := mapCoordinate_lt r.cursorY screen.height hw.2
  unfold landing landingFrom
  cases edge <;> cases hst : r.doubleStyle <;>
    simp only [DoubleEdgeStyle.entryForExit, Edge.opposite, entryTargetCoords, Edge.horizontal,
      entryInsetPx, reduceCtorEq, Bool.false_eq_true, true_or, false_or, iff_true, and_true,
      iff_self] <;> omega

@[simp] lemma clearPush_desk (r : EdgeRouter) : r.clearPush.desk = r.desk := rfl

@[simp] lemma creditPush_desk (r : EdgeRouter) (screen : Screen) (edge : Edge) (overflow : ℤ) :
    (r.creditPush screen edge overflow).desk = r.desk := by
  rw [creditPush_eq]
  rfl

lemma routeLocal_refines (hl : r.desk.Linked) (hn : r.activeRemote = none) (now : Instant)
    (dx dy : Int32) {p : EdgeRouter × RoutedEvent} (hp : r.routeLocal now dx dy = some p) :
    r.Refines p.1 (.route now (.mouseMove dx dy)) := by
  obtain ⟨screen, hs, -⟩ := hl.column
  have hs' : r.layout.screen r.currentScreen = some screen := hs
  have hc : r.currentScreen = r.localScreen := hl.home_iff.mp hn
  have hop : (∀ edge target, r.exitEdge screen dx dy = some edge → r.gate now edge = .ok target →
      r.savedPush screen edge (r.overflow screen edge dx dy) < edgePushPx) →
      r.LandsInside (.route now (.mouseMove dx dy)) := by
    intro h _ screen' edge target targetScreen hs₁ he hg hb _
    obtain rfl := Option.some.inj (hs'.symm.trans hs₁)
    exact absurd (h edge target he hg) (not_lt.mpr hb)
  have clamped : ∀ (r₁ : EdgeRouter) reason, r₁.desk = r.desk →
      r.LandsInside (.route now (.mouseMove dx dy)) →
      r.Refines (r₁.clampToEdge (r.nextX dx) (r.nextY dy) screen.width screen.height reason).1
        (.route now (.mouseMove dx dy)) := by
    intro r₁ reason hd hop
    have hp := holds_pinned hl.valid hs' (r.nextX dx) (r.nextY dy)
    rw [hc] at hp
    refine refines_local hl hn hp ?_ hop
    rw [← hd]
    rfl
  have hstep := routeLocal_step hs' hp
  cases hstep with
  | inside h =>
    have hp := holds_inside hs' h
    rw [hc] at hp
    refine refines_local hl hn hp (moveInside_desk _ _ _ _) (hop ?_)
    intro edge target he
    rw [h] at he
    cases he
  | held edge reason h hg =>
    refine clamped _ reason (clearPush_desk r) (hop ?_)
    intro edge' target he hg'
    obtain rfl := Option.some.inj (h.symm.trans he)
    rw [hg] at hg'
    cases hg'
  | saving edge target h hg hb =>
    refine clamped _ .pushBudget (creditPush_desk r screen edge _) (hop ?_)
    intro edge' target' he hg'
    obtain rfl := Option.some.inj (h.symm.trans he)
    exact hb
  | crossing edge target targetScreen h hg hb ht =>
    obtain ⟨-, htarget, -⟩ := gate_ok hg
    have hne : target ≠ r.localScreen := hc ▸ (Layout.crossingTargetFor_mem hl.valid htarget).2
    have hw := hl.valid.size ht
    obtain ⟨hx, hy⟩ := r.landing_lt screen edge hw
    have hd := Desk.Step.leave (d := r.desk) target (r.landing screen targetScreen edge) hne
      ⟨targetScreen, ht, hx⟩
    refine ⟨r.layout.Holds target (r.landing screen targetScreen edge), ?_, ?_⟩
    · rw [if_pos (show r.desk.active = none from hn)] at hd
      simp only [crossed, desk, cursorPosition, localCursorPosition, hc, if_true] at hd ⊢
      exact hd
    · constructor
      · rintro ⟨s, hs₁, -, hlt⟩ - screen' edge' target' targetScreen' hs₂ he hg' - ht'
        obtain rfl := Option.some.inj (hs'.symm.trans hs₂)
        obtain rfl := Option.some.inj (h.symm.trans he)
        obtain rfl := Except.ok.inj (hg.symm.trans hg')
        obtain rfl := Option.some.inj (ht.symm.trans ht')
        obtain rfl := Option.some.inj (ht.symm.trans hs₁)
        exact hy.mp hlt
      · intro hland
        exact ⟨targetScreen, ht, hx,
          hy.mpr (hland hn screen edge target targetScreen hs' h hg hb ht)⟩

lemma route_local_step (hl : r.desk.Linked) (hn : r.activeRemote = none) {now : Instant}
    {dx dy : Int32} {p : EdgeRouter × RoutedEvent} (hp : r.route now (.mouseMove dx dy) = some p) :
    ∃ screen, r.layout.screen r.currentScreen = some screen ∧
      (r.cursorX < screen.width ∧ r.cursorY < screen.height) ∧
        r.LocalStep now dx dy screen p := by
  obtain ⟨screen, hs, hc⟩ := hl.inside hn
  rw [route_local hn] at hp
  exact ⟨screen, hs, hc, routeLocal_step hs hp⟩

/-- What a local router is given is a motion, or stays as it is. -/
lemma route_local_cases (hl : r.desk.Linked) (hn : r.activeRemote = none) {now : Instant}
    {event : InputEvent} {reply : RoutedEvent} (hr : r.route now event = some (r', reply)) :
    ((∀ dx dy, event ≠ .mouseMove dx dy) ∧ r' = r ∧ reply = .localEvent event) ∨
      ∃ dx dy screen, event = .mouseMove dx dy ∧ r.layout.screen r.currentScreen = some screen ∧
        (r.cursorX < screen.width ∧ r.cursorY < screen.height) ∧
          r.LocalStep now dx dy screen (r', reply) := by
  by_cases hmove : ∃ dx dy, event = .mouseMove dx dy
  · obtain ⟨dx, dy, rfl⟩ := hmove
    obtain ⟨screen, hs, hc, hstep⟩ := route_local_step hl hn hr
    exact Or.inr ⟨dx, dy, screen, rfl, hs, hc, hstep⟩
  · have hne : ∀ dx dy, event ≠ .mouseMove dx dy := fun dx dy he => hmove ⟨dx, dy, he⟩
    rw [route_local_other hn hne] at hr
    obtain ⟨rfl, rfl⟩ := Prod.mk.inj (Option.some.inj hr)
    exact Or.inl ⟨hne, rfl, rfl⟩

/-- Local routing leaves control local unless it hands off. -/
lemma route_local_reply (hl : r.desk.Linked) (hn : r.activeRemote = none) {now : Instant}
    {event : InputEvent} {reply : RoutedEvent} (hr : r.route now event = some (r', reply)) :
    (r'.activeRemote = none ∧ ∃ event', reply = .localEvent event') ∨
      ∃ dx dy source target edge targetX targetY rest, event = .mouseMove dx dy ∧
        reply = .handoff source target edge targetX targetY rest := by
  rcases route_local_cases hl hn hr with ⟨-, rfl, rfl⟩ | ⟨dx, dy, screen, rfl, hs, hc, hstep⟩
  · exact Or.inl ⟨hn, event, rfl⟩
  generalize hq : (r', reply) = q at hstep
  cases hstep with
  | inside he =>
    obtain ⟨rfl, rfl⟩ := Prod.mk.inj hq
    exact Or.inl ⟨by rw [moveInside_eq]; exact hn, _, rfl⟩
  | held edge reason he hg =>
    obtain ⟨rfl, rfl⟩ := Prod.mk.inj hq
    exact Or.inl ⟨hn, _, rfl⟩
  | saving edge target he hg hb =>
    obtain ⟨rfl, rfl⟩ := Prod.mk.inj hq
    exact Or.inl ⟨by rw [creditPush_eq]; exact hn, _, rfl⟩
  | crossing edge target targetScreen he hg hb ht =>
    obtain ⟨-, rfl⟩ := Prod.mk.inj hq
    exact Or.inr ⟨dx, dy, _, _, _, _, _, _, rfl, rfl⟩

/-- **What a handoff says of the step it came from.** -/
lemma handoff_crossing (hl : r.desk.Linked) (hn : r.activeRemote = none) {now : Instant}
    {dx dy : Int32} {source target : ScreenId} {edge : Edge} {targetX targetY : ℕ}
    {rest : InputEvent} (h : r.route now (.mouseMove dx dy) =
      some (r', .handoff source target edge targetX targetY rest)) :
    ∃ screen targetScreen, r.layout.screen r.currentScreen = some screen ∧
      (r.cursorX < screen.width ∧ r.cursorY < screen.height) ∧
      r.exitEdge screen dx dy = some edge ∧ r.gate now edge = .ok target ∧
      edgePushPx ≤ r.savedPush screen edge (r.overflow screen edge dx dy) ∧
      r.layout.screen target = some targetScreen ∧ source = r.currentScreen ∧
      (targetX, targetY) = r.landing screen targetScreen edge ∧
      r' = r.crossed now screen targetScreen target edge := by
  obtain ⟨screen, hs, hc, hstep⟩ := route_local_step hl hn h
  generalize hq : (r', RoutedEvent.handoff source target edge targetX targetY rest) = q at hstep
  cases hstep with
  | inside he => cases hq
  | held edge reason he hg => cases hq
  | saving edge target he hg hb => cases hq
  | crossing edge target targetScreen he hg hb ht =>
    obtain ⟨rfl, hevent⟩ := Prod.mk.inj hq
    obtain ⟨rfl, rfl, rfl, rfl, rfl, -⟩ := RoutedEvent.handoff.inj hevent
    exact ⟨screen, targetScreen, hs, hc, he, hg, hb, ht, rfl, rfl, rfl⟩

lemma route_driving_step (hl : r.desk.Linked) {target : ScreenId}
    (ha : r.activeRemote = some target) {now : Instant} {dx dy : Int32}
    {p : EdgeRouter × RoutedEvent} (hp : r.route now (.mouseMove dx dy) = some p) :
    ∃ remote, r.layout.screen r.currentScreen = some remote ∧
      r.DriveStep now target dx dy remote p := by
  obtain ⟨remote, hs, -⟩ := hl.column
  rw [route_driving ha] at hp
  exact ⟨remote, hs, Option.some.inj hp ▸ routeDriving_step hs now target dx dy⟩

/-- What a driving router is given is a motion, or goes out as it is. -/
lemma route_driving_cases (hl : r.desk.Linked) {target : ScreenId}
    (ha : r.activeRemote = some target) {now : Instant} {event : InputEvent}
    {reply : RoutedEvent} (hr : r.route now event = some (r', reply)) :
    ((∀ dx dy, event ≠ .mouseMove dx dy) ∧ r' = r ∧ reply = .forward target event) ∨
      ∃ dx dy remote, event = .mouseMove dx dy ∧ r.layout.screen r.currentScreen = some remote ∧
        r.DriveStep now target dx dy remote (r', reply) := by
  by_cases hmove : ∃ dx dy, event = .mouseMove dx dy
  · obtain ⟨dx, dy, rfl⟩ := hmove
    obtain ⟨remote, hs, hstep⟩ := route_driving_step hl ha hr
    exact Or.inr ⟨dx, dy, remote, rfl, hs, hstep⟩
  · have hne : ∀ dx dy, event ≠ .mouseMove dx dy := fun dx dy he => hmove ⟨dx, dy, he⟩
    rw [route_driving ha, routeDriving_other now target hne] at hr
    obtain ⟨rfl, rfl⟩ := Prod.mk.inj (Option.some.inj hr)
    exact Or.inl ⟨hne, rfl, rfl⟩

/-- No drive hands off. -/
lemma routeDriving_ne_handoff (now : Instant) (target : ScreenId) (event : InputEvent)
    (source target' : ScreenId) (edge : Edge) (targetX targetY : ℕ) (rest : InputEvent) :
    (r.routeDriving now target event).2 ≠ .handoff source target' edge targetX targetY rest := by
  rcases r.routeDriving_cases now target event with hout | ⟨dx, dy, remote, rfl, hs, hstep⟩
  · rw [hout]
    simp
  generalize r.routeDriving now target (.mouseMove dx dy) = p at hstep
  cases hstep <;> simp [comeHome]

/-- Linked screens are found: `route` has no way to stop. -/
lemma route_isSome (hl : r.desk.Linked) (now : Instant) (event : InputEvent) :
    ∃ p, r.route now event = some p := by
  unfold route
  rcases ha : r.activeRemote with _ | target
  · rcases event with _ | ⟨dx, dy⟩ | _ | _ | _ | _ | _
    case mouseMove =>
      obtain ⟨screen, hs, -⟩ := hl.column
      simp only [routeLocal_eq (r := r) hs]
      rcases r.exitEdge screen dx dy with _ | edge
      · exact ⟨_, rfl⟩
      simp only [push_eq]
      rcases hg : r.gate now edge with reason | target
      · exact ⟨_, rfl⟩
      simp only
      split_ifs
      · exact ⟨_, rfl⟩
      · obtain ⟨-, ht, -⟩ := gate_ok hg
        obtain ⟨s, hs⟩ := Layout.screen_isSome.mpr (Layout.crossingTargetFor_mem hl.valid ht).1
        rw [show r.layout.screen target = some s from hs]
        exact ⟨_, rfl⟩
    all_goals exact ⟨_, rfl⟩
  · exact ⟨_, rfl⟩

/-- **The router refines the desk.** From linked screens no operation stops, and each is one
step of the desk, kept on its screens exactly when it lands inside. -/
theorem step_refines (hl : r.desk.Linked) (op : Op) :
    ∃ r' reply, r.step op = some (r', reply) ∧ r.Refines r' op := by
  cases op with
  | route now event =>
    obtain ⟨p, hp⟩ := route_isSome hl now event
    refine ⟨p.1, .routed p.2, by simp only [step, hp, Option.map_some], ?_⟩
    unfold route at hp
    rcases ha : r.activeRemote with _ | target
    · rw [ha] at hp
      rcases event with _ | ⟨dx, dy⟩ | _ | _ | _ | _ | _
      case mouseMove => exact routeLocal_refines hl ha now dx dy hp
      all_goals
        obtain rfl := Option.some.inj hp
        exact refines_stay rfl trivial
    · rw [ha] at hp
      obtain rfl := Option.some.inj hp
      exact routeDriving_refines hl ha now event
  | setReturnHold hold => exact ⟨_, _, rfl, refines_stay rfl trivial⟩
  | setHandoffGrace grace => exact ⟨_, _, rfl, refines_stay rfl trivial⟩
  | setLocked locked => exact ⟨_, _, rfl, refines_stay rfl trivial⟩
  | setEdgeMode mode => exact ⟨_, _, rfl, refines_stay rfl trivial⟩
  | setDoubleStyle style => exact ⟨_, _, rfl, refines_stay rfl trivial⟩
  | setLayout layout => exact ⟨_, _, rfl, setLayout_refines hl layout⟩
  | setLocalCursorPosition x y => exact ⟨_, _, rfl, seedPosition_refines hl x y true trivial⟩
  | placeLocalCursor x y => exact ⟨_, _, rfl, seedPosition_refines hl x y false trivial⟩
  | resyncIfLocal x y => exact ⟨_, _, rfl, resyncIfLocal_refines hl x y⟩
  | adoptLocalScreenSize width height =>
    exact ⟨_, _, rfl, adoptLocalScreenSize_refines width height⟩
  | adoptPeerScreenSize fingerprint width height =>
    exact ⟨_, _, rfl, adoptPeerScreenSize_refines fingerprint width height⟩
  | returnToLocal source x y => exact ⟨_, _, rfl, returnToLocal_refines hl source x y⟩
  | restoreLocal source => exact ⟨_, _, rfl, restoreLocal_refines hl source⟩
  | restoreLocalAtEdge now source edge =>
    exact ⟨_, _, rfl, restoreLocalAtEdge_refines hl now source edge⟩
  | handoffTo now target x y => exact ⟨_, _, rfl, handoffTo_refines hl now target x y⟩

lemma step_linked (hl : r.desk.Linked) {op : Op} {reply : Reply}
    (hs : r.step op = some (r', reply)) : r'.desk.Linked := by
  obtain ⟨r₁, reply₁, hs₁, safe, hstep, -⟩ := step_refines hl op
  obtain ⟨rfl, -⟩ := Prod.mk.inj (Option.some.inj (hs.symm.trans hs₁))
  exact hstep.linked hl

lemma route_linked (hl : r.desk.Linked) {now : Instant} {event : InputEvent}
    {reply : RoutedEvent} (h : r.route now event = some (r', reply)) : r'.desk.Linked := by
  have hs : r.step (.route now event) = some (r', .routed reply) := by
    simp only [step, h, Option.map_some]
  exact step_linked hl hs

/-! ### Runs -/

lemma new_ok {layout : Layout} (h : new layout = .ok r) : layout.Valid ∧ r.desk.Placed := by
  obtain ⟨hval, screen, hr⟩ := new_started h
  have hv := Layout.validate_ok.mp hval
  have hw := hv.size hr.onLayout
  have hp : layout.Holds r.localScreen (screen.width / 2, screen.height / 2) :=
    ⟨screen, hr.onLayout, Nat.div_lt_self hw.1 (by norm_num), Nat.div_lt_self hw.2 (by norm_num)⟩
  have hcursor : r.layout.Holds r.currentScreen r.cursorPosition := by
    rw [hr.layout, hr.current, hr.cursor]
    exact hp
  have hhome : r.layout.Holds r.localScreen r.localCursorPosition := by
    rw [hr.layout, hr.localCursor]
    exact hp
  have hvalid : r.layout.Valid := by
    rw [hr.layout]
    exact hv
  have hlocal : r.layout.screen r.localScreen = some screen := by
    rw [hr.layout]
    exact hr.onLayout
  have hlinked : r.desk.Linked :=
    { valid := hvalid
      localIn := ⟨screen, hlocal⟩
      column := hcursor.column
      home_iff := iff_of_true hr.active hr.current
      remote := fun t ht => absurd (hr.active.symm.trans ht) (Option.some_ne_none t).symm
      inside := fun _ => hcursor }
  exact ⟨hv, hlinked, hcursor, hhome⟩

/-- **Reachable screens are linked**, wherever the cursors are. -/
theorem Reachable.linked (h : r.Reachable) : r.desk.Linked := by
  refine h.invariant (I := fun r => r.desk.Linked) (fun layout r hn => (new_ok hn).2.linked) ?_
  exact fun r op r' reply hl hs => step_linked hl hs

/-- The current and the local screen exist and have their cursors on them, and a remote is
active exactly while it is the current screen. -/
structure OnScreens (r : EdgeRouter) : Prop where
  cursor : ∃ s, r.layout.screen r.currentScreen = some s ∧
    r.cursorX < s.width ∧ r.cursorY < s.height
  localCursor : ∃ s, r.layout.screen r.localScreen = some s ∧
    r.localCursorX < s.width ∧ r.localCursorY < s.height
  active_none : r.activeRemote = none ↔ r.currentScreen = r.localScreen
  active_some : ∀ t, r.activeRemote = some t → r.currentScreen = t

lemma placed_iff_onScreens (hl : r.desk.Linked) : r.desk.Placed ↔ r.OnScreens :=
  ⟨fun h => ⟨h.cursor, h.home, hl.home_iff, hl.remote⟩, fun h => ⟨hl, h.cursor, h.localCursor⟩⟩

/-- **The cursors stay on their screens** through a run from `new` exactly when every step
of it lands inside. -/
theorem onScreens_iff_landsInside {layout : Layout} {r₀ : EdgeRouter}
    (hn : new layout = .ok r₀) (ops : List Op) :
    Run.Each step LandsInside r₀ ops ↔
      ∀ before, before <+: ops → ∃ r replies,
        Run.run step r₀ before = some (r, replies) ∧ r.OnScreens := by
  have hgo : ∀ (r : EdgeRouter) op, r.desk.Placed →
      ∃ r' reply, r.step op = some (r', reply) ∧ (r'.desk.Placed ↔ r.LandsInside op) := by
    intro r op hp
    obtain ⟨r', reply, hs, safe, hstep, hsafe⟩ := step_refines hp.linked op
    exact ⟨r', reply, hs, (hstep.placed_iff hp).trans hsafe⟩
  rw [Run.each_iff (I := fun r : EdgeRouter => r.desk.Placed) hgo (new_ok hn).2]
  refine forall₂_congr fun before _ => exists₂_congr fun r replies => and_congr_right fun hr => ?_
  have hreach : r.Reachable := ⟨layout, r₀, before, replies, hn, hr⟩
  exact placed_iff_onScreens hreach.linked

/-- A desk of 1920 by 1080 and one peer. -/
def twoScreens (x y : Int32) (width height : ℕ) : Layout where
  screens :=
    [⟨⟨1⟩, "desk", 0, 0, 1920, 1080, none⟩, ⟨⟨2⟩, "peer", x, y, width, height, some "peer"⟩]
  selfScreen := some ⟨1⟩

theorem onScreens_twoScreens : ∃ r₀ r replies,
    new (twoScreens 1 0 1280 800) = .ok r₀ ∧
      Run.run step r₀ [.placeLocalCursor 1919 500, .route 0 (.mouseMove 40 0)] =
        some (r, replies) ∧ r.OnScreens := by
  have hn : ∃ r₀, new (twoScreens 1 0 1280 800) = .ok r₀ := ⟨_, rfl⟩
  obtain ⟨r₀, hn⟩ := hn
  obtain ⟨r, replies, hr, h⟩ := (onScreens_iff_landsInside hn
    [.placeLocalCursor 1919 500, .route 0 (.mouseMove 40 0)]).mp (by
      obtain rfl := Except.ok.inj hn
      refine ⟨trivial, fun s' o hs => ?_⟩
      obtain ⟨rfl, -⟩ := Prod.mk.inj (Option.some.inj hs)
      refine ⟨fun _ screen edge target targetScreen hs he _ _ _ => Or.inl ?_,
        fun _ _ _ => trivial⟩
      obtain rfl := Option.some.inj hs
      obtain rfl := Option.some.inj he
      rfl) _ (List.prefix_refl _)
  exact ⟨r₀, r, replies, hn, hr, h⟩

/-- A peer above the desk, entered through its left edge: the column of the exit becomes the
row of the landing. -/
theorem vertical_crossing_leaves_screens :
    ¬∀ (layout : Layout) (r₀ r : EdgeRouter) (ops : List Op) (replies : List Reply),
      new layout = .ok r₀ → Run.run step r₀ ops = some (r, replies) → r.OnScreens := by
  intro h
  obtain ⟨s, hs, -, hy⟩ := (h (twoScreens 0 (-1) 1920 1080) _ _
    [.setDoubleStyle .fixedLeft, .placeLocalCursor 1900 0, .route 0 (.mouseMove 0 (-10))] _
    rfl rfl).cursor
  obtain rfl := Option.some.inj hs
  exact absurd hy (by decide)

end EdgeRouter

end TheKvm

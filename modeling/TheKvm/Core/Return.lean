import TheKvm.Core.Refine

/-!
Every drive can be brought home.

The edge a crossing enters through faces home: by the symmetry of the grid, by the lone
peer of a double link, or because it is the pinned edge. A sustained shove past it spends
the return budget, armed or not.
-/

namespace TheKvm

/-- One mouse motion, and when it is routed. -/
structure Motion where
  now : Instant
  dx : Int32
  dy : Int32

def Motion.event (m : Motion) : Instant × InputEvent := (m.now, .mouseMove m.dx m.dy)

/-- Within 64 bits nothing wraps. -/
lemma wrapI64_eq {v : ℤ} (h : -2 ^ 63 ≤ v ∧ v < 2 ^ 63) : wrapI64 v = v := by
  unfold wrapI64
  rw [Int.bmod_def]
  split_ifs <;> omega

lemma Int32.toInt_bounds (d : Int32) : -2 ^ 31 ≤ d.toInt ∧ d.toInt < 2 ^ 31 :=
  ⟨d.le_toInt, d.toInt_lt⟩

namespace EdgeRouter

variable {r r' : EdgeRouter}

/-! ### The overflow of a motion -/

lemma overflow_pos {screen : Screen} {dx dy : Int32} {edge : Edge}
    (h : r.exitEdge screen dx dy = some edge) : 0 < r.overflow screen edge dx dy := by
  unfold exitEdge edgeForOverflow at h
  unfold overflow
  split_ifs at h <;> obtain rfl := Option.some.inj h <;> simp only [overflowPast] <;> omega

/-- The cursor is on its screen as far as `edge` is concerned. -/
def Within (r : EdgeRouter) (edge : Edge) : Prop :=
  ∃ s, r.layout.screen r.currentScreen = some s ∧ r.cursorX < s.width ∧
    (edge.horizontal = false → r.cursorY < s.height)

lemma overflow_le {screen : Screen} (hs : r.layout.screen r.currentScreen = some screen)
    {edge : Edge} (hw : r.Within edge) (dx dy : Int32) :
    r.overflow screen edge dx dy ≤ 2 ^ 31 := by
  obtain ⟨s, hs', hx, hy⟩ := hw
  obtain rfl := Option.some.inj (hs.symm.trans hs')
  have h₁ := Int32.toInt_bounds dx
  have h₂ := Int32.toInt_bounds dy
  unfold overflow nextX nextY
  cases edge <;> simp only [overflowPast, Edge.horizontal, forall_const, reduceCtorEq] at hy ⊢ <;>
    omega

/-! ### The edge of entry faces home -/

/-- **Entry always faces home.** -/
theorem entry_facesHome (hl : r.desk.Linked) (hn : r.activeRemote = none) {edge : Edge}
    {target : ScreenId} (h : r.crossingTarget r.currentScreen edge = some target) :
    r.facesHome target (r.doubleStyle.entryForExit edge) = true := by
  have hc : r.currentScreen = r.localScreen := hl.home_iff.mp hn
  rw [hc] at h
  unfold facesHome fixedReturnEdge
  rcases hst : r.doubleStyle with _ | _ | _
  · simp only [DoubleEdgeStyle.entryForExit, Bool.or_eq_true, decide_eq_true_eq,
      Bool.and_eq_true]
    rcases Layout.crossingTargetFor_some h with hn | ⟨hmode, hedge, hp, hne⟩
    · have hback := Layout.neighborForEdge_opposite hl.valid hn
      exact Or.inl (decide_eq_true hback)
    · refine Or.inr ⟨⟨⟨hmode, ?_⟩, hne⟩, by rw [hp]; rfl⟩
      revert hedge
      cases edge <;> simp [Edge.horizontal, Edge.opposite]
  · simp [DoubleEdgeStyle.entryForExit]
  · simp [DoubleEdgeStyle.entryForExit]

/-! ### A drive and its budget -/

/-- A drive that entered through `edge`, with no hold and no grace on the way home. -/
structure Drive (r : EdgeRouter) (edge : Edge) : Prop where
  linked : r.desk.Linked
  active : r.activeRemote ≠ none
  entry : r.entryEdge = some edge
  faces : r.facesHome r.currentScreen edge = true
  hold : r.returnHold = 0
  grace : r.handoffGrace = 0
  within : r.Within edge
  saved : 0 ≤ r.returnAccum ∧ r.returnAccum < returnPushPx
  run : r.returnEdge = some edge → 0 ≤ r.returnEdgeAccum ∧ r.returnEdgeAccum < returnEdgePx

/-- What the drive has spent of its way home past the edge of entry. -/
def spent (r : EdgeRouter) (entry : Edge) : ℤ :=
  if r.returnArmed then if r.returnEdge = some entry then r.returnEdgeAccum else 0
  else r.returnAccum

lemma Drive.spent_bounds {edge : Edge} (h : r.Drive edge) :
    0 ≤ r.spent edge ∧ r.spent edge < returnPushPx := by
  have hs := h.saved
  have hr := h.run
  unfold spent
  simp only [returnPushPx, returnEdgePx] at *
  split_ifs with ha he
  · have := hr he
    omega
  · omega
  · omega

/-- Only the mirrored style enters through the top or the bottom. -/
lemma style_of_vertical_entry {style : DoubleEdgeStyle} {exit : Edge}
    (h : (style.entryForExit exit).horizontal = false) : style = .mirror := by
  cases style with
  | mirror => rfl
  | fixedLeft => cases h
  | fixedRight => cases h

/-- A crossing opens a drive. -/
lemma cross_drive (hl : r.desk.Linked) (hn : r.activeRemote = none) (hhold : r.returnHold = 0)
    (hgrace : r.handoffGrace = 0) {now : Instant} {dx dy : Int32} {source target : ScreenId}
    {edge : Edge} {targetX targetY : ℕ} {rest : InputEvent}
    (h : r.route now (.mouseMove dx dy) =
      some (r', .handoff source target edge targetX targetY rest)) :
    ∃ entry, r'.Drive entry := by
  obtain ⟨screen, targetScreen, hs, hc, he, hg, hb, ht, rfl, hland, rfl⟩ := handoff_crossing hl hn h
  have hl' := route_linked hl h
  obtain ⟨-, htarget, -⟩ := gate_ok hg
  have hlt := r.landing_lt screen edge (hl.valid.size ht)
  refine ⟨r.doubleStyle.entryForExit edge, hl', by simp [crossed], rfl,
    entry_facesHome hl hn htarget, hhold, hgrace, ⟨targetScreen, ht, hlt.1, fun hv => ?_⟩,
    ⟨le_rfl, show (0 : ℤ) < returnPushPx by decide⟩, by simp [crossed]⟩
  exact hlt.2.mpr (Or.inr (Or.inl (style_of_vertical_entry hv)))

/-- Control came home, and says so. -/
def ComesHome (r : EdgeRouter) (event : RoutedEvent) : Prop :=
  r.activeRemote = none ∧ ∃ source edge entryEdge armed,
    event = .returnHome source edge entryEdge armed

lemma comeHome_comesHome (hl : r.desk.Linked) {target : ScreenId}
    (ha : r.activeRemote = some target) (now : Instant) (source : ScreenId) (edge : Edge) :
    (r.comeHome now source target edge).1.ComesHome (r.comeHome now source target edge).2 := by
  obtain ⟨screen, hs⟩ := hl.localIn
  obtain ⟨x, y, -, hd⟩ := restoreLocalAtEdge_desk now edge hl.valid ha hs
  exact ⟨congrArg Desk.active hd, source, edge, r.entryEdge, r.returnArmed, rfl⟩

lemma Drive.armed_of_enabled {edge : Edge} (h : r.Drive edge) (hd : r.disarmed edge = false) :
    r.returnArmed = true := by
  simpa [disarmed, h.entry] using hd

lemma Drive.edge_of_disarmed {edge edge' : Edge} (h : r.Drive edge)
    (hd : r.disarmed edge' = true) : edge' = edge ∧ r.returnArmed = false := by
  simp only [disarmed, h.entry, Option.some.injEq, Bool.and_eq_true, decide_eq_true_eq,
    Bool.not_eq_true'] at hd
  exact ⟨hd.1.symm, hd.2⟩

/-- With no hold and no grace a full run fires. -/
lemma savedReturn_lt (hhold : r.returnHold = 0) (hgrace : r.handoffGrace = 0) {now : Instant}
    {edge : Edge} {overflow : ℤ}
    (h : (r.creditReturn now edge overflow).returnFires now = false) :
    r.savedReturn edge overflow < if r.returnArmed then returnEdgePx else returnPushPx := by
  rw [creditReturn_eq] at h
  simpa [returnFires, inHandoffGrace, hhold, hgrace] using h

/-- A run past the edge of entry grows by each overflow, and by no less than a pixel. -/
lemma Drive.savedReturn_eq {edge : Edge} (h : r.Drive edge) (ha : r.returnArmed = true)
    {screen : Screen} (hs : r.layout.screen r.currentScreen = some screen) {dx dy : Int32}
    (he : r.exitEdge screen dx dy = some edge) :
    r.savedReturn edge (max (r.overflow screen edge dx dy) 0) =
      r.spent edge + r.overflow screen edge dx dy ∧ 0 < r.overflow screen edge dx dy := by
  have hpos := overflow_pos he
  have hle := overflow_le hs h.within dx dy
  have hmax : max (r.overflow screen edge dx dy) 0 = r.overflow screen edge dx dy := by omega
  unfold savedReturn spent returnCredit
  simp only [ha, if_true, hmax]
  split_ifs with hre
  · have hrun := h.run hre
    simp only [returnEdgePx] at hrun
    exact ⟨wrapI64_eq (by omega), hpos⟩
  · exact ⟨(zero_add _).symm, hpos⟩

/-- The escape run grows by each overflow. -/
lemma Drive.shove_eq {edge : Edge} (h : r.Drive edge) (ha : r.returnArmed = false)
    {screen : Screen} (hs : r.layout.screen r.currentScreen = some screen) {dx dy : Int32}
    (he : r.exitEdge screen dx dy = some edge) :
    (r.shove (max (r.overflow screen edge dx dy) 0)).returnAccum =
      r.spent edge + r.overflow screen edge dx dy ∧ 0 < r.overflow screen edge dx dy := by
  have hpos := overflow_pos he
  have hle := overflow_le hs h.within dx dy
  have hsaved := h.saved
  simp only [returnPushPx] at hsaved
  have hmax : max (r.overflow screen edge dx dy) 0 = r.overflow screen edge dx dy := by omega
  unfold shove spent
  simp only [ha, Bool.false_eq_true, if_false, hmax]
  exact ⟨wrapI64_eq (by omega), hpos⟩

/-- Motion on the driven screen leaves the cursor on it. -/
lemma within_pinTo (hl : r.desk.Linked) {screen : Screen}
    (hs : r.layout.screen r.currentScreen = some screen) (edge : Edge) (x y : ℤ) :
    (r.pinTo x y screen.width screen.height).Within edge := by
  have hw := hl.valid.size hs
  exact ⟨screen, hs, clamp_lt x hw.1, fun _ => clamp_lt y hw.2⟩

/-- **One step of a drive** comes home or keeps the drive. -/
lemma Drive.route {edge : Edge} (h : r.Drive edge) {now : Instant} {event : InputEvent}
    {reply : RoutedEvent} (hr : r.route now event = some (r', reply)) :
    r'.ComesHome reply ∨ r'.Drive edge := by
  obtain ⟨target, ha⟩ := Option.ne_none_iff_exists'.mp h.active
  have hl' := route_linked h.linked hr
  rcases route_driving_cases h.linked ha hr with ⟨-, rfl, -⟩ | ⟨dx, dy, remote, rfl, hs, hstep⟩
  · exact Or.inr h
  generalize hq : (r', reply) = q at hstep
  cases hstep with
  | roams he =>
    obtain ⟨rfl, -⟩ := Prod.mk.inj hq
    have hin := exitEdge_none he
    right
    rw [roam_eq] at hl' ⊢
    refine ⟨hl', h.active, h.entry, h.faces, h.hold, h.grace,
      ⟨remote, hs, by simp only; omega, fun _ => by simp only; omega⟩, ?_, ?_⟩
    · have hsaved := h.saved
      simp only
      split_ifs
      · exact ⟨le_rfl, show (0 : ℤ) < returnPushPx by decide⟩
      · exact hsaved
    · simp only
      split_ifs
      · simp
      · exact h.run
  | returns edge' he hf hd hfire =>
    obtain ⟨rfl, rfl⟩ := Prod.mk.inj hq
    exact Or.inl (comeHome_comesHome (by simpa using h.linked)
      (by rw [creditReturn_eq]; exact ha) _ _ _)
  | builds edge' he hf hd hfire =>
    obtain ⟨rfl, -⟩ := Prod.mk.inj hq
    right
    have hlt := savedReturn_lt h.hold h.grace hfire
    have hl₁ : (r.creditReturn now edge' (max (r.overflow remote edge' dx dy) 0)).desk.Linked := by
      simpa using h.linked
    rw [creditReturn_eq] at hl' hl₁ ⊢
    refine ⟨hl', h.active, h.entry, h.faces, h.hold, h.grace, within_pinTo hl₁ hs edge _ _,
      h.saved, fun hre => ?_⟩
    obtain rfl : edge' = edge := Option.some.inj hre
    have harmed := h.armed_of_enabled hd
    obtain ⟨heq, hpos⟩ := h.savedReturn_eq harmed hs he
    rw [harmed, if_pos rfl] at hlt
    refine ⟨?_, hlt⟩
    show 0 ≤ r.savedReturn edge' (max (r.overflow remote edge' dx dy) 0)
    have hspent := h.spent_bounds
    omega
  | escapes edge' he hf hd hfire =>
    obtain ⟨rfl, rfl⟩ := Prod.mk.inj hq
    exact Or.inl (comeHome_comesHome (r := r.shove _) h.linked ha _ _ _)
  | shoves edge' he hf hd hfire =>
    obtain ⟨rfl, -⟩ := Prod.mk.inj hq
    obtain ⟨rfl, harmed⟩ := h.edge_of_disarmed hd
    obtain ⟨heq, hpos⟩ := h.shove_eq harmed hs he
    have hsaved := h.saved
    have hspent : r.spent edge' = r.returnAccum := by simp [spent, harmed]
    right
    refine ⟨hl', h.active, h.entry, h.faces, h.hold, h.grace,
      within_pinTo (r := r.shove _) h.linked hs edge' _ _, ⟨?_, ?_⟩, h.run⟩
    · show 0 ≤ (r.shove (max (r.overflow remote edge' dx dy) 0)).returnAccum
      omega
    · have hgrace : r.inHandoffGrace now = false := by simp [inHandoffGrace, h.grace]
      exact lt_of_not_ge fun hc => hfire ⟨hc, hgrace⟩
  | clamps edge' he hf =>
    obtain ⟨rfl, -⟩ := Prod.mk.inj hq
    right
    exact ⟨hl', h.active, h.entry, h.faces, h.hold, h.grace,
      within_pinTo (r := r.clearReturnRun) h.linked hs edge _ _,
      ⟨le_rfl, show (0 : ℤ) < returnPushPx by decide⟩, by simp [pinTo, clearReturnRun]⟩

/-- **A shove past the edge of entry** comes home or spends its overflow. -/
lemma Drive.spends {edge : Edge} (h : r.Drive edge) {m : Motion} {screen : Screen}
    (hs : r.layout.screen r.currentScreen = some screen)
    (he : r.exitEdge screen m.dx m.dy = some edge) {reply : RoutedEvent}
    (hr : r.route m.now (.mouseMove m.dx m.dy) = some (r', reply)) :
    r'.ComesHome reply ∨ r'.spent edge = r.spent edge + r.overflow screen edge m.dx m.dy := by
  obtain ⟨target, ha⟩ := Option.ne_none_iff_exists'.mp h.active
  obtain ⟨remote, hs', hstep⟩ := route_driving_step h.linked ha hr
  obtain rfl := Option.some.inj (hs.symm.trans hs')
  generalize hq : (r', reply) = q at hstep
  cases hstep with
  | roams he' =>
    rw [he] at he'
    cases he'
  | returns edge' he' hf hd hfire =>
    obtain ⟨rfl, rfl⟩ := Prod.mk.inj hq
    exact Or.inl
      (comeHome_comesHome (by simpa using h.linked) (by rw [creditReturn_eq]; exact ha) _ _ _)
  | builds edge' he' hf hd hfire =>
    obtain rfl := Option.some.inj (he.symm.trans he')
    obtain ⟨rfl, -⟩ := Prod.mk.inj hq
    have harmed := h.armed_of_enabled hd
    obtain ⟨heq, -⟩ := h.savedReturn_eq harmed hs he
    right
    rw [← heq, creditReturn_eq]
    simp [spent, pinTo, harmed]
  | escapes edge' he' hf hd hfire =>
    obtain ⟨rfl, rfl⟩ := Prod.mk.inj hq
    exact Or.inl (comeHome_comesHome (r := r.shove _) h.linked ha _ _ _)
  | shoves edge' he' hf hd hfire =>
    obtain rfl := Option.some.inj (he.symm.trans he')
    obtain ⟨rfl, -⟩ := Prod.mk.inj hq
    obtain ⟨-, harmed⟩ := h.edge_of_disarmed hd
    obtain ⟨heq, -⟩ := h.shove_eq harmed hs he
    right
    rw [← heq]
    simp [spent, pinTo, shove, harmed]
  | clamps edge' he' hf =>
    obtain rfl := Option.some.inj (he.symm.trans he')
    rw [h.faces] at hf
    cases hf

/-! ### Shoves -/

/-- Motions that each overflow `edge` while the drive lasts, and what they overflow it by;
once control is home nothing is asked of the rest. -/
inductive Shoves (edge : Edge) : EdgeRouter → List Motion → ℤ → Prop
  | nil (r : EdgeRouter) : Shoves edge r [] 0
  | home {r : EdgeRouter} (hn : r.activeRemote = none) (rest : List Motion) (n : ℤ) :
    Shoves edge r rest n
  | cons {r r' : EdgeRouter} {reply : RoutedEvent} {screen : Screen} {m : Motion}
    {rest : List Motion} {n : ℤ} (hs : r.layout.screen r.currentScreen = some screen)
    (he : r.exitEdge screen m.dx m.dy = some edge)
    (hr : r.route m.now (.mouseMove m.dx m.dy) = some (r', reply))
    (h : Shoves edge r' rest n) :
    Shoves edge r (m :: rest) (r.overflow screen edge m.dx m.dy + n)

/-- A motion of the sequence `moves`, routed from `r` on, comes home. -/
def ReturnsWithin (r : EdgeRouter) (moves : List Motion) : Prop :=
  ∃ before m after r₁ replies r₂ reply, moves = before ++ m :: after ∧
    Run.run routed r (before.map Motion.event) = some (r₁, replies) ∧
    r₁.route m.now (.mouseMove m.dx m.dy) = some (r₂, reply) ∧ r₂.ComesHome reply

lemma Drive.returnsWithin {edge : Edge} (h : r.Drive edge) {moves : List Motion} {n : ℤ}
    (hs : Shoves edge r moves n) (hn : returnPushPx ≤ r.spent edge + n) :
    r.ReturnsWithin moves := by
  induction hs with
  | nil r => exact absurd h.spent_bounds.2 (by omega)
  | home hnone => exact absurd hnone h.active
  | @cons r r' reply screen m rest n hscreen he hr hrest ih =>
    by_cases hhome : r'.ComesHome reply
    · exact ⟨[], m, rest, r, [], r', reply, rfl, rfl, hr, hhome⟩
    have h' := (h.route hr).resolve_left hhome
    have hspent := (h.spends hscreen he hr).resolve_left hhome
    obtain ⟨before, m', after, r₁, replies, r₂, reply', rfl, hrun, hr', hhome'⟩ :=
      ih h' (by omega)
    exact ⟨m :: before, m', after, r₁, reply :: replies, r₂, reply', rfl,
      Run.run_cons_some.mpr ⟨r', reply, replies, hr, hrun, rfl⟩, hr', hhome'⟩

/-- Routed events keep a drive, while none comes home. -/
lemma Drive.run_routed {edge : Edge} (h : r.Drive edge) {events : List (Instant × InputEvent)}
    {replies : List RoutedEvent} (hr : Run.run routed r events = some (r', replies))
    (hstay : ∀ source edge entryEdge armed,
      RoutedEvent.returnHome source edge entryEdge armed ∉ replies) : r'.Drive edge := by
  induction events generalizing r replies with
  | nil =>
    obtain ⟨rfl, -⟩ := Prod.mk.inj (Option.some.inj hr)
    exact h
  | cons e events ih =>
    obtain ⟨r₁, reply, replies', hs, hrest, rfl⟩ := Run.run_cons_some.mp hr
    have hnot : ¬r₁.ComesHome reply := by
      rintro ⟨-, source, edge', entryEdge, armed, rfl⟩
      exact hstay source edge' entryEdge armed List.mem_cons_self
    refine ih ((h.route hs).resolve_left hnot) hrest fun source edge' entryEdge armed hm => ?_
    exact hstay source edge' entryEdge armed (List.mem_cons_of_mem _ hm)

/-- **Every drive can be brought home**: after a handoff and whatever is routed in the drive,
motions past the edge of entry that add up to the return budget come home. -/
theorem shoves_return (h : r.Reachable) (hn : r.activeRemote = none) (hhold : r.returnHold = 0)
    (hgrace : r.handoffGrace = 0) {now : Instant} {dx dy : Int32} {source target : ScreenId}
    {edge : Edge} {targetX targetY : ℕ} {rest : InputEvent}
    (hr : r.route now (.mouseMove dx dy) =
      some (r', .handoff source target edge targetX targetY rest))
    {between : List (Instant × InputEvent)} {r₁ : EdgeRouter}
    {replies : List RoutedEvent} (hb : Run.run routed r' between = some (r₁, replies))
    (hstay : ∀ source edge entryEdge armed,
      RoutedEvent.returnHome source edge entryEdge armed ∉ replies)
    {entry : Edge} (hentry : r'.entryEdge = some entry) {moves : List Motion} {n : ℤ}
    (hs : Shoves entry r₁ moves n) (hbudget : returnPushPx ≤ n) : r₁.ReturnsWithin moves := by
  obtain ⟨entry', hdrive⟩ := cross_drive h.linked hn hhold hgrace hr
  obtain rfl : entry' = entry := Option.some.inj (hdrive.entry.symm.trans hentry)
  have hdrive₁ := hdrive.run_routed hb hstay
  have hspent := hdrive₁.spent_bounds
  exact hdrive₁.returnsWithin hs (by omega)

theorem shoves_return_twoScreens : ∃ r₁ : EdgeRouter, r₁.Reachable ∧
    r₁.activeRemote = some ⟨2⟩ ∧ r₁.ReturnsWithin [⟨0, -50, 3⟩, ⟨0, -50, 0⟩] := by
  obtain ⟨r, hr, hn, hhold, hgrace, r', hroute, hentry, hreach, ha, hmoves⟩ : ∃ r : EdgeRouter,
      r.Reachable ∧ r.activeRemote = none ∧ r.returnHold = 0 ∧ r.handoffGrace = 0 ∧
      ∃ r', r.route 0 (.mouseMove 40 0) =
          some (r', .handoff ⟨1⟩ ⟨2⟩ .right 32 370 (.mouseMove 40 0)) ∧
        r'.entryEdge = some .left ∧ r'.Reachable ∧ r'.activeRemote = some ⟨2⟩ ∧
        Shoves .left r' [⟨0, -50, 3⟩, ⟨0, -50, 0⟩] (18 + (50 + 0)) :=
    ⟨_, ⟨twoScreens 1 0 1280 800, _, [.placeLocalCursor 1919 500], _, rfl, rfl⟩, rfl, rfl, rfl,
      _, rfl, rfl,
      ⟨twoScreens 1 0 1280 800, _, [.placeLocalCursor 1919 500, .route 0 (.mouseMove 40 0)], _,
        rfl, rfl⟩, rfl, .cons rfl rfl rfl (.cons rfl rfl rfl (.nil _))⟩
  exact ⟨r', hreach, ha, shoves_return hr hn hhold hgrace hroute
    (rfl : Run.run routed r' [] = _) (by simp) hentry hmoves (by decide)⟩

end EdgeRouter

end TheKvm

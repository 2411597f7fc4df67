import TheKvm.Core.Jitter

/-!
Phantom exits: crossings that open while the cursor is in the middle of its screen.

A motion from there saves less than a crossing costs, so it takes what was saved before. What was
saved is given back when the cursor comes inside, except to pins that move it by 2 px or less.
-/

namespace TheKvm

namespace EdgeRouter

variable {r r' : EdgeRouter}

/-- The cursor is further inside `edge` than the guard reaches. -/
def MidScreen (r : EdgeRouter) (edge : Edge) : Prop := phantomStartGuardPx < r.depth edge

/-- A motion goes past `edge` of the current screen. -/
def Overflows (r : EdgeRouter) (edge : Edge) (dx dy : Int32) : Prop :=
  ∃ screen, r.layout.screen r.currentScreen = some screen ∧ r.exitEdge screen dx dy = some edge

/-- What a crossing through `edge` may come from that follows `ops`: the cursor is within the
guard, or one of the motions went past the edge, and the cursor was within the guard ever since. -/
def Guarded (r₀ : EdgeRouter) (ops : List Op) (r : EdgeRouter) (edge : Edge) : Prop :=
  ¬r.MidScreen edge ∨
    ∃ before now dx dy after s os, ops = before ++ .route now (.mouseMove dx dy) :: after ∧
      Run.run step r₀ before = some (s, os) ∧ s.Overflows edge dx dy ∧
      ∀ mid rest s' os', after = mid ++ rest →
        Run.run step r₀ (before ++ .route now (.mouseMove dx dy) :: mid) = some (s', os') →
          ¬s'.MidScreen edge

/-- What a pin inward by `retreat`, a jump of `jump`, leaves of what was saved. -/
def savedAfter (r : EdgeRouter) (jump retreat : ℕ) : ℤ :=
  if jump ≤ resyncDivergePx then r.pushAccum else wrapI64 (r.pushAccum - retreat)

/-- The condition on a call: a pin that leaves something of a saved run, because it is short or
because less is owed than was saved, leaves the cursor within the guard of the edge of that run. -/
def PinSafe (r : EdgeRouter) : Op → Prop
  | .resyncIfLocal x y => r.activeRemote = none → ∀ screen,
      r.layout.screen r.localScreen = some screen → ∀ edge, r.pushEdge = some edge →
        let x := min x (screen.width - 1)
        let y := min y (screen.height - 1)
        let before := distanceFromEdge edge r.cursorX r.cursorY screen.width screen.height
        let after := distanceFromEdge edge x y screen.width screen.height
        0 < r.savedAfter (r.resyncJump x y) (after - before) → after ≤ phantomStartGuardPx
  | _ => True

/-- While a run is saved, the cursor is within the guard of its edge. -/
structure RunNear (r : EdgeRouter) : Prop where
  low : -2 ^ 63 ≤ r.pushAccum
  near : r.activeRemote = none → ∀ edge, r.pushEdge = some edge → 0 < r.pushAccum →
    ¬r.MidScreen edge

/-- Nothing saved is near everything. -/
lemma runNear_of_cleared (h : r.pushAccum = 0) : r.RunNear where
  low := by rw [h]; norm_num
  near := fun _ _ _ hpos => absurd hpos (by rw [h]; decide)

/-! ### Calls that leave the run alone -/

/-- The run is forgotten, or it stays and, if control is local, the cursor is no further inside. -/
def LeavesRun (r r' : EdgeRouter) : Prop :=
  r'.pushAccum = 0 ∨ (r'.pushEdge = r.pushEdge ∧ r'.pushAccum = r.pushAccum ∧
    (r'.activeRemote = none → r.activeRemote = none ∧ ∀ edge, r'.depth edge ≤ r.depth edge))

lemma leavesRun_refl (r : EdgeRouter) : LeavesRun r r :=
  Or.inr ⟨rfl, rfl, fun hn => ⟨hn, fun _ => le_rfl⟩⟩

/-- While a remote is driven the cursor is its own business. -/
lemma leavesRun_of_driving {target : ScreenId} (ha : r'.activeRemote = some target)
    (hedge : r'.pushEdge = r.pushEdge) (haccum : r'.pushAccum = r.pushAccum) : LeavesRun r r' :=
  Or.inr ⟨hedge, haccum, fun hn => by rw [ha] at hn; cases hn⟩

lemma RunNear.leavesRun (h : r.RunNear) (hl : LeavesRun r r') : r'.RunNear := by
  rcases hl with hzero | ⟨hedge, haccum, hlocal⟩
  · exact runNear_of_cleared hzero
  · refine ⟨haccum ▸ h.low, fun hn edge he hpos hmid => ?_⟩
    obtain ⟨hn', hdepth⟩ := hlocal hn
    exact h.near hn' edge (hedge ▸ he) (haccum ▸ hpos) (lt_of_lt_of_le hmid (hdepth edge))

lemma setLayout_leavesRun (r : EdgeRouter) (layout : Layout) :
    LeavesRun r (r.setLayout layout).1 := by
  unfold setLayout
  rcases layout.validate with message | ⟨⟨⟩⟩
  · exact leavesRun_refl r
  simp only
  split_ifs with hactive
  · exact leavesRun_refl r
  · exact leavesRun_refl r
  · have hn : r.activeRemote = none := Option.not_isSome_iff_eq_none.mp hactive
    split
    · next hgone =>
      refine Or.inr ⟨rfl, rfl, fun _ => ⟨hn, fun edge => ?_⟩⟩
      simp only [depth, hgone, Option.map_none, Option.getD_none]
      exact depth_nonneg edge
    · exact Or.inl rfl

lemma seedPosition_leavesRun (r : EdgeRouter) (x y : ℕ) (applyGate : Bool) :
    LeavesRun r (r.seedPosition x y applyGate).1 := by
  unfold seedPosition
  split_ifs
  · exact leavesRun_refl r
  · split
    · exact leavesRun_refl r
    · exact Or.inl rfl

lemma adoptLocalScreenSize_leavesRun (r : EdgeRouter) (width height : ℕ) :
    LeavesRun r (r.adoptLocalScreenSize width height).1 := by
  unfold adoptLocalScreenSize
  split
  · exact leavesRun_refl r
  · split
    · exact leavesRun_refl r
    · exact Or.inl rfl

lemma adoptPeerScreenSize_leavesRun (r : EdgeRouter) (fingerprint : String) (width height : ℕ) :
    LeavesRun r (r.adoptPeerScreenSize fingerprint width height).1 := by
  unfold adoptPeerScreenSize
  split
  · exact leavesRun_refl r
  split
  · exact leavesRun_refl r
  split
  · exact leavesRun_refl r
  · exact Or.inl rfl

lemma returnToLocal_leavesRun (r : EdgeRouter) (source : ScreenId) (x y : ℕ) :
    LeavesRun r (r.returnToLocal source x y).1 := by
  unfold returnToLocal
  split_ifs
  · exact leavesRun_refl r
  · split
    · exact leavesRun_refl r
    · exact Or.inl rfl

lemma restoreLocal_leavesRun (r : EdgeRouter) (source : ScreenId) :
    LeavesRun r (r.restoreLocal source).1 := by
  unfold restoreLocal
  split_ifs
  · exact leavesRun_refl r
  · split
    · exact leavesRun_refl r
    · exact Or.inl rfl

lemma restoreLocalAtEdge_leavesRun (r : EdgeRouter) (now : Instant) (source : ScreenId)
    (edge : Edge) : LeavesRun r (r.restoreLocalAtEdge now source edge).1 := by
  unfold restoreLocalAtEdge
  split_ifs
  · exact leavesRun_refl r
  · split
    · exact leavesRun_refl r
    · exact Or.inl rfl

lemma handoffTo_leavesRun (r : EdgeRouter) (now : Instant) (target : ScreenId) (x y : ℕ) :
    LeavesRun r (r.handoffTo now target x y).1 := by
  unfold handoffTo
  split
  · exact leavesRun_refl r
  · simp only
    split_ifs
    · exact Or.inl rfl
    · exact leavesRun_of_driving rfl rfl rfl
    · exact leavesRun_of_driving rfl rfl rfl

/-- A drive leaves the run alone until it comes home, and then none is left. -/
lemma routeDriving_leavesRun {target : ScreenId} (ha : r.activeRemote = some target)
    (now : Instant) (event : InputEvent) :
    LeavesRun r (r.routeDriving now target event).1 := by
  rcases r.routeDriving_cases now target event with hout | ⟨dx, dy, remote, rfl, hs, hstep⟩
  · rw [hout]
    exact leavesRun_refl r
  have home : ∀ r₁ : EdgeRouter, r₁.pushEdge = r.pushEdge → r₁.pushAccum = r.pushAccum →
      r₁.activeRemote = r.activeRemote → ∀ edge,
        LeavesRun r (r₁.comeHome now r.currentScreen target edge).1 := by
    intro r₁ hedge haccum hactive edge
    rcases restoreLocalAtEdge_leavesRun r₁ now target edge with hzero | ⟨hedge', haccum', hlocal⟩
    · exact Or.inl hzero
    · refine Or.inr ⟨hedge'.trans hedge, haccum'.trans haccum, fun hn => ?_⟩
      have hn₁ := (hlocal hn).1
      rw [hactive, ha] at hn₁
      cases hn₁
  generalize r.routeDriving now target (.mouseMove dx dy) = p at hstep
  cases hstep with
  | roams h => rw [roam_eq]; exact leavesRun_of_driving ha rfl rfl
  | returns edge h hf hd hr => rw [creditReturn_eq]; apply home <;> rfl
  | builds edge h hf hd hr => rw [creditReturn_eq]; exact leavesRun_of_driving ha rfl rfl
  | escapes edge h hf hd hr => apply home <;> rfl
  | shoves edge h hf hd hr => exact leavesRun_of_driving ha rfl rfl
  | clamps edge h hf => exact leavesRun_of_driving ha rfl rfl

/-! ### Pins and motions on the local screen -/

lemma neg_pow_le_wrapI64 (v : ℤ) : -2 ^ 63 ≤ wrapI64 v := by
  unfold wrapI64
  rw [Int.bmod_def]
  split_ifs <;> omega

/-- A safe pin leaves what is saved near its edge. -/
lemma RunNear.resync (h : r.RunNear) (hl : r.desk.Linked) {x y : ℕ}
    (hsafe : r.PinSafe (.resyncIfLocal x y)) : (r.resyncIfLocal x y).RunNear := by
  rcases ha : r.activeRemote with _ | target
  swap
  · rw [resyncIfLocal_refused x y (Or.inl (by simp [ha]))]
    exact h
  obtain ⟨screen, hs⟩ := hl.localIn
  have hc : r.currentScreen = r.localScreen := hl.home_iff.mp ha
  have hs' : r.layout.screen r.localScreen = some screen := hs
  have hpin := hsafe ha screen hs'
  rw [resyncIfLocal_eq x y ha hc hs']
  generalize min x (screen.width - 1) = px at hpin ⊢
  generalize min y (screen.height - 1) = py at hpin ⊢
  have hdepth : ∀ edge, (r.moved px py).depth edge =
      distanceFromEdge edge px py screen.width screen.height := by
    intro edge
    simp only [depth, moved, hc, hs', Option.map_some, Option.getD_some]
  have hrun : -2 ^ 63 ≤ (r.resyncPush screen px py).2 ∧
      ∀ edge, (r.resyncPush screen px py).1 = some edge → 0 < (r.resyncPush screen px py).2 →
        distanceFromEdge edge px py screen.width screen.height ≤ phantomStartGuardPx := by
    unfold savedAfter at hpin
    unfold resyncPush
    rcases hp : r.pushEdge with _ | edge
    · exact ⟨h.low, fun _ he => by cases he⟩
    have hsaved := hpin edge hp
    simp only at hsaved ⊢
    split_ifs at hsaved ⊢ with hjump hspent
    · refine ⟨h.low, fun edge' he hpos => ?_⟩
      obtain rfl : edge = edge' := Option.some.inj he
      exact hsaved hpos
    · exact ⟨by norm_num, fun _ he => by cases he⟩
    · refine ⟨neg_pow_le_wrapI64 _, fun edge' he hpos => ?_⟩
      obtain rfl : edge = edge' := Option.some.inj he
      exact hsaved hpos
  refine ⟨hrun.1, fun _ edge he hpos hmid => ?_⟩
  have hmid' : (phantomStartGuardPx : ℤ) < (r.moved px py).depth edge := hmid
  rw [hdepth edge] at hmid'
  have hnear := hrun.2 edge he hpos
  omega

/-- A motion on the local screen leaves what it saves near the edge it overflowed. -/
lemma RunNear.routeLocal (h : r.RunNear) (hl : r.desk.Linked) (ha : r.activeRemote = none)
    {now : Instant} {event : InputEvent} {reply : RoutedEvent}
    (hr : r.route now event = some (r', reply)) : r'.RunNear := by
  rcases route_local_cases hl ha hr with ⟨-, rfl, -⟩ | ⟨dx, dy, screen, rfl, hs, hc, hstep⟩
  · exact h
  have hw : ∀ edge, r.Within edge := within_of_bounds hs hc
  generalize hq : (r', reply) = q at hstep
  cases hstep with
  | inside he =>
    obtain ⟨rfl, -⟩ := Prod.mk.inj hq
    rw [moveInside_eq]
    rcases hgo : r.letsGo screen (r.nextX dx).toNat (r.nextY dy).toNat with _ | _
    · refine ⟨by simpa using h.low, fun _ edge he hpos hmid => ?_⟩
      have hp : r.pushEdge = some edge := by simpa using he
      have hnear : distanceFromEdge edge (r.nextX dx).toNat (r.nextY dy).toNat screen.width
          screen.height ≤ 2 := by
        unfold letsGo at hgo
        rw [hp] at hgo
        simpa using hgo
      simp only [MidScreen, depth, moved, hs, Option.map_some, Option.getD_some,
        phantomStartGuardPx] at hmid
      omega
    · exact runNear_of_cleared (by simp)
  | held edge reason he hg =>
    obtain ⟨rfl, -⟩ := Prod.mk.inj hq
    exact runNear_of_cleared rfl
  | saving edge target he hg hb =>
    obtain ⟨rfl, -⟩ := Prod.mk.inj hq
    rw [creditPush_eq]
    refine ⟨?_, fun _ edge' he' hpos hmid => ?_⟩
    · show -2 ^ 63 ≤ r.savedPush screen edge (r.overflow screen edge dx dy)
      have hcredit := r.pushCredit_bounds screen edge (overflow_pos he)
      unfold savedPush
      split_ifs
      · exact neg_pow_le_wrapI64 _
      · omega
    · obtain rfl : edge = edge' := Option.some.inj he'
      have hzero := depth_pinTo_exit hs hl.valid (hw edge) he
      have hmid' : (phantomStartGuardPx : ℤ) <
          (r.pinTo (r.nextX dx) (r.nextY dy) screen.width screen.height).depth edge := hmid
      rw [hzero] at hmid'
      exact absurd hmid' (by decide)
  | crossing edge target targetScreen he hg hb ht =>
    obtain ⟨rfl, -⟩ := Prod.mk.inj hq
    exact runNear_of_cleared rfl

/-! ### Every call -/

/-- **One call keeps the saved run near its edge.** -/
lemma RunNear.step (h : r.RunNear) (hl : r.desk.Linked) {op : Op} (hsafe : r.PinSafe op)
    {reply : Reply} (hs : r.step op = some (r', reply)) : r'.RunNear := by
  cases op with
  | route now event =>
    obtain ⟨p, hp, hpe⟩ := Option.map_eq_some_iff.mp hs
    obtain ⟨rfl, rfl⟩ := Prod.mk.inj hpe
    rcases ha : r.activeRemote with _ | target
    · exact h.routeLocal hl ha hp
    · rw [route_driving ha] at hp
      obtain rfl := Option.some.inj hp
      exact h.leavesRun (routeDriving_leavesRun ha now event)
  | setLayout layout =>
    obtain ⟨rfl, -⟩ := Prod.mk.inj (Option.some.inj hs)
    exact h.leavesRun (setLayout_leavesRun r layout)
  | setLocalCursorPosition x y =>
    obtain ⟨rfl, -⟩ := Prod.mk.inj (Option.some.inj hs)
    exact h.leavesRun (seedPosition_leavesRun r x y true)
  | placeLocalCursor x y =>
    obtain ⟨rfl, -⟩ := Prod.mk.inj (Option.some.inj hs)
    exact h.leavesRun (seedPosition_leavesRun r x y false)
  | resyncIfLocal x y =>
    obtain ⟨rfl, -⟩ := Prod.mk.inj (Option.some.inj hs)
    exact h.resync hl hsafe
  | adoptLocalScreenSize width height =>
    obtain ⟨rfl, -⟩ := Prod.mk.inj (Option.some.inj hs)
    exact h.leavesRun (adoptLocalScreenSize_leavesRun r width height)
  | adoptPeerScreenSize fingerprint width height =>
    obtain ⟨rfl, -⟩ := Prod.mk.inj (Option.some.inj hs)
    exact h.leavesRun (adoptPeerScreenSize_leavesRun r fingerprint width height)
  | returnToLocal source x y =>
    obtain ⟨rfl, -⟩ := Prod.mk.inj (Option.some.inj hs)
    exact h.leavesRun (returnToLocal_leavesRun r source x y)
  | restoreLocal source =>
    obtain ⟨rfl, -⟩ := Prod.mk.inj (Option.some.inj hs)
    exact h.leavesRun (restoreLocal_leavesRun r source)
  | restoreLocalAtEdge now source edge =>
    obtain ⟨rfl, -⟩ := Prod.mk.inj (Option.some.inj hs)
    exact h.leavesRun (restoreLocalAtEdge_leavesRun r now source edge)
  | handoffTo now target x y =>
    obtain ⟨rfl, -⟩ := Prod.mk.inj (Option.some.inj hs)
    exact h.leavesRun (handoffTo_leavesRun r now target x y)
  | _ =>
    obtain ⟨rfl, -⟩ := Prod.mk.inj (Option.some.inj hs)
    exact ⟨h.low, h.near⟩

/-- A motion from the middle of the screen opens an edge only on what was saved before. -/
lemma saved_of_midScreen (h : r.RunNear) {screen : Screen}
    (hs : r.layout.screen r.currentScreen = some screen) {edge : Edge} (hmid : r.MidScreen edge)
    {overflow : ℤ} (hpos : 0 < overflow)
    (hb : edgePushPx ≤ r.savedPush screen edge overflow) :
    r.pushEdge = some edge ∧ 0 < r.pushAccum := by
  have hfar : ¬distanceFromEdge edge r.cursorX r.cursorY screen.width screen.height ≤
      phantomStartGuardPx := by
    simp only [MidScreen, depth, hs, Option.map_some, Option.getD_some] at hmid
    omega
  have hcredit : r.pushCredit screen edge overflow = min overflow (edgePushPx - 1) := by
    rw [pushCredit, if_neg hfar]
  have hlow := h.low
  rw [savedPush, hcredit] at hb
  simp only [edgePushPx] at hb
  split_ifs at hb with hp
  · refine ⟨hp, ?_⟩
    have hle := wrapI64_le (v := r.pushAccum + min overflow (8 - 1)) (by omega)
    omega
  · omega

/-- A new router has nothing saved. -/
lemma new_saves {layout : Layout} (h : new layout = .ok r) : r.pushAccum = 0 := by
  obtain ⟨-, screen, hr⟩ := new_started h
  exact hr.push

/-- **The phantom-exit guard.** In a run whose pins are safe, no crossing opens from the middle of
the screen. -/
theorem crossings_guarded {layout : Layout} {r₀ : EdgeRouter} (hnew : new layout = .ok r₀)
    {ops : List Op} (hsafe : Run.Each step PinSafe r₀ ops) {replies : List Reply}
    (hrun : Run.run step r₀ ops = some (r, replies)) {now : Instant} {event : InputEvent}
    {source target : ScreenId} {edge : Edge} {targetX targetY : ℕ} {rest : InputEvent}
    (hcross : r.route now event =
      some (r', .handoff source target edge targetX targetY rest)) :
    Guarded r₀ ops r edge := by
  have hreach : r.Reachable := ⟨layout, r₀, ops, replies, hnew, hrun⟩
  have hl := hreach.linked
  have hstart : r₀.desk.Linked ∧ r₀.RunNear := by
    exact ⟨Reachable.linked ⟨layout, r₀, [], [], hnew, rfl⟩, runNear_of_cleared (new_saves hnew)⟩
  have hnear : r.desk.Linked ∧ r.RunNear := by
    refine Run.invariant_history (I := fun _ (s : EdgeRouter) => s.desk.Linked ∧ s.RunNear)
      (m := []) ?_ hstart hsafe hrun
    rintro m s op s' reply ⟨hl, hnear⟩ hsafe hs
    exact ⟨step_linked hl hs, hnear.step hl hsafe hs⟩
  refine Or.inl fun hmid => ?_
  rcases ha : r.activeRemote with _ | remote
  · rcases route_local_reply hl ha hcross with ⟨-, event', he⟩ |
      ⟨dx, dy, source', target', edge', targetX', targetY', rest', rfl, he⟩
    · cases he
    · obtain ⟨screen, targetScreen, hs, -, hexit, -, hb, -⟩ := handoff_crossing hl ha hcross
      obtain ⟨hpush, hpos⟩ := saved_of_midScreen hnear.2 hs hmid (overflow_pos hexit) hb
      exact hnear.2.near ha edge hpush hpos hmid
  · rw [route_driving ha] at hcross
    exact routeDriving_ne_handoff now remote event _ _ _ _ _ _
      (congrArg Prod.snd (Option.some.inj hcross))

theorem crossings_guarded_twoScreens : ∃ r₀ r : EdgeRouter,
    new (twoScreens 1 0 1280 800) = .ok r₀ ∧
      Guarded r₀ [.placeLocalCursor 1915 500, .route 0 (.mouseMove 6 0), .resyncIfLocal 1917 500]
        r .right := by
  obtain ⟨r₀, r, r', replies, hnew, hsafe, hrun, hcross⟩ : ∃ r₀ r r' : EdgeRouter, ∃ replies,
      new (twoScreens 1 0 1280 800) = .ok r₀ ∧
        Run.Each step PinSafe r₀ [.placeLocalCursor 1915 500, .route 0 (.mouseMove 6 0),
          .resyncIfLocal 1917 500] ∧
        Run.run step r₀ [.placeLocalCursor 1915 500, .route 0 (.mouseMove 6 0),
          .resyncIfLocal 1917 500] = some (r, replies) ∧
        r.route 0 (.mouseMove 40 0) =
          some (r', .handoff ⟨1⟩ ⟨2⟩ .right 32 370 (.mouseMove 38 0)) := by
    refine ⟨_, _, _, _, rfl, ⟨trivial, fun _ _ hs => ?_⟩, rfl, rfl⟩
    obtain ⟨rfl, -⟩ := Prod.mk.inj (Option.some.inj hs)
    refine ⟨trivial, fun _ _ hs => ?_⟩
    obtain ⟨rfl, -⟩ := Prod.mk.inj (Option.some.inj hs)
    refine ⟨fun _ screen hscreen edge hedge _ => ?_, fun _ _ _ => trivial⟩
    obtain rfl := Option.some.inj hscreen
    obtain rfl := Option.some.inj hedge
    decide
  exact ⟨r₀, r, hnew, crossings_guarded hnew hsafe hrun hcross⟩

/-- Short pins take the cursor from the right edge to the middle of the screen. -/
def shortPins : List Op := (List.range 33).map fun k => .resyncIfLocal (1917 - 2 * k) 500

set_option maxRecDepth 4000 in
/-- One pixel past the edge, short pins to the middle of the screen, and one motion crosses. -/
theorem short_pins_keep_run :
    ¬∀ (layout : Layout) (r₀ r r' : EdgeRouter) (ops : List Op) (replies : List Reply)
      (now : Instant) (event : InputEvent) (source target : ScreenId) (edge : Edge)
      (targetX targetY : ℕ) (rest : InputEvent), new layout = .ok r₀ →
      Run.run step r₀ ops = some (r, replies) →
      r.route now event = some (r', .handoff source target edge targetX targetY rest) →
        Guarded r₀ ops r edge := by
  intro h
  obtain ⟨r₀, r, r', replies, hnew, hrun, hcross, hmid⟩ : ∃ r₀ r r' : EdgeRouter, ∃ replies,
      new (twoScreens 1 0 1280 800) = .ok r₀ ∧
        Run.run step r₀ (.placeLocalCursor 1919 500 :: .route 0 (.mouseMove 1 0) :: shortPins) =
          some (r, replies) ∧
        r.route 0 (.mouseMove 73 0) =
          some (r', .handoff ⟨1⟩ ⟨2⟩ .right 32 370 (.mouseMove 7 0)) ∧ r.MidScreen .right :=
    ⟨_, _, _, _, rfl, rfl, rfl, by unfold MidScreen; decide⟩
  rcases h _ _ _ _ _ _ _ _ _ _ _ _ _ _ hnew hrun hcross with
    hguard | ⟨before, now, dx, dy, after, s, os, hops, -, -, hsince⟩
  · exact hguard hmid
  · exact hsince after [] _ _ (List.append_nil after).symm (hops ▸ hrun) hmid

end EdgeRouter

end TheKvm

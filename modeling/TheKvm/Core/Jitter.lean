import TheKvm.Lib.Window
import TheKvm.Core.Return

/-!
Jitter neither crosses nor returns.

What a run toward an edge has saved is covered: it never exceeds the largest net outward
displacement of a window of motions that ends now by more than the distance left to the
edge. Overflow saves no more than a motion goes past the edge, motion inside gives back
what it gains, and where a clamp moves the cursor away from the edge it moves it across a
screen wider than any budget.
-/

namespace TheKvm

/-- How far an event goes toward `edge`. -/
def outward (edge : Edge) : InputEvent → ℤ
  | .mouseMove dx dy =>
    match edge with
    | .left => -dx.toInt
    | .right => dx.toInt
    | .top => -dy.toInt
    | .bottom => dy.toInt
  | _ => 0

lemma outward_other (edge : Edge) {event : InputEvent} (h : ∀ dx dy, event ≠ .mouseMove dx dy) :
    outward edge event = 0 := by
  cases event with
  | mouseMove dx dy => exact absurd rfl (h dx dy)
  | _ => rfl

/-- The net displacement of a window of events toward `edge`. -/
def net (edge : Edge) (events : List (Instant × InputEvent)) : ℤ :=
  (events.map fun e => outward edge e.2).sum

lemma wrapI64_le {v : ℤ} (h : -2 ^ 63 ≤ v) : -2 ^ 63 ≤ wrapI64 v ∧ wrapI64 v ≤ v := by
  unfold wrapI64
  rw [Int.bmod_def]
  split_ifs <;> omega

/-! ### Covered runs -/

/-- What a run has saved, up to the largest budget, is covered by a peak and by the distance
to its edge. -/
structure Covered (peak depth saved : ℤ) : Prop where
  low : -2 ^ 63 ≤ saved
  high : min saved returnPushPx ≤ peak + depth

lemma covered_zero {peak depth : ℤ} (hp : 0 ≤ peak) (hd : 0 ≤ depth) : Covered peak depth 0 :=
  ⟨by norm_num, by rw [returnPushPx]; omega⟩

/-- A run starts with no more than its first motion goes past the edge. -/
lemma covered_start {peak depth δ credit : ℤ} (hp : 0 ≤ peak) (hd : 0 ≤ depth)
    (hc : 0 ≤ credit) (hle : credit ≤ δ - depth) : Covered (max 0 (peak + δ)) 0 credit :=
  ⟨by omega, by omega⟩

/-- A run grows by no more than a motion goes past the edge. -/
lemma Covered.credit {peak depth saved δ credit : ℤ} (h : Covered peak depth saved)
    (hc : 0 ≤ credit) (hle : credit ≤ δ - depth) :
    Covered (max 0 (peak + δ)) 0 (wrapI64 (saved + credit)) := by
  have hlow := h.low
  have hhigh := h.high
  have hw := wrapI64_le (v := saved + credit) (by omega)
  exact ⟨hw.1, by omega⟩

/-- A run stays covered when the cursor moves and is pinned to a large screen. -/
lemma Covered.pinned {peak depth saved δ span : ℤ} (h : Covered peak depth saved)
    (hspan : returnPushPx < span) :
    Covered (max 0 (peak + δ)) (min (max (depth - δ) 0) (span - 1)) saved := by
  have hhigh := h.high
  exact ⟨h.low, by omega⟩

/-- The budget of a way home. -/
def returnBudget (armed : Bool) : ℤ := if armed then returnEdgePx else returnPushPx

lemma Covered.budget {peak saved : ℤ} (h : Covered peak 0 saved) (armed : Bool)
    (hb : returnBudget armed ≤ saved) : returnBudget armed ≤ peak := by
  have hhigh := h.high
  unfold returnBudget at *
  simp only [returnEdgePx, returnPushPx] at *
  split_ifs at * <;> omega

namespace EdgeRouter

variable {r r' : EdgeRouter}

/-! ### Depth -/

/-- Overflow is what is left of a motion after it reached the edge. -/
lemma overflow_eq {screen : Screen} (hs : r.layout.screen r.currentScreen = some screen)
    {edge : Edge} (hw : r.Within edge) (dx dy : Int32) :
    r.overflow screen edge dx dy = outward edge (.mouseMove dx dy) - r.depth edge := by
  obtain ⟨s, hs', hx, hy⟩ := hw
  obtain rfl := Option.some.inj (hs.symm.trans hs')
  unfold overflow depth nextX nextY
  rw [hs]
  cases edge <;>
    simp only [overflowPast, outward, distanceFromEdge, Option.map_some, Option.getD_some,
      Edge.horizontal, forall_const, reduceCtorEq] at hy ⊢ <;>
    omega

/-- Pixels of a screen across the axis of `edge`. -/
def spanOf (screen : Screen) (edge : Edge) : ℕ :=
  if edge.horizontal then screen.width else screen.height

/-- Where the pinned cursor is. -/
lemma depth_pinTo {screen : Screen} (hs : r.layout.screen r.currentScreen = some screen)
    (hsize : 0 < screen.width ∧ 0 < screen.height) {edge : Edge} (hw : r.Within edge)
    (dx dy : Int32) :
    (r.pinTo (r.nextX dx) (r.nextY dy) screen.width screen.height).depth edge =
      min (max (r.depth edge - outward edge (.mouseMove dx dy)) 0) (spanOf screen edge - 1) := by
  obtain ⟨s, hs', hx, hy⟩ := hw
  obtain rfl := Option.some.inj (hs.symm.trans hs')
  unfold depth pinTo nextX nextY spanOf
  simp only [hs]
  cases edge <;>
    simp only [outward, distanceFromEdge, Option.map_some, Option.getD_some, Edge.horizontal,
      forall_const, reduceCtorEq, if_true, Bool.false_eq_true, if_false] at hy ⊢ <;>
    omega

/-- Every screen is wider and higher than the largest budget. -/
def Roomy (l : Layout) : Prop :=
  ∀ s ∈ l.screens, returnPushPx < s.width ∧ returnPushPx < s.height

lemma Roomy.spanOf {screen : Screen} (h : Roomy r.layout)
    (hs : r.layout.screen r.currentScreen = some screen) (edge : Edge) :
    returnPushPx < (spanOf screen edge : ℤ) := by
  have hw := h screen (Layout.screen_some hs).1
  unfold EdgeRouter.spanOf
  split_ifs
  · exact hw.1
  · exact hw.2

lemma within_of_holds (h : r.layout.Holds r.currentScreen r.cursorPosition) (edge : Edge) :
    r.Within edge := by
  obtain ⟨s, hs, hx, hy⟩ := h
  exact ⟨s, hs, hx, fun _ => hy⟩

lemma within_of_bounds {screen : Screen} (hs : r.layout.screen r.currentScreen = some screen)
    (hc : r.cursorX < screen.width ∧ r.cursorY < screen.height) (edge : Edge) : r.Within edge :=
  ⟨screen, hs, hc.1, fun _ => hc.2⟩

/-- Motion that overflows no edge is pinned where it goes. -/
lemma pinTo_inside {screen : Screen} {dx dy : Int32} (h : r.exitEdge screen dx dy = none) :
    (r.pinTo (r.nextX dx) (r.nextY dy) screen.width screen.height).cursorPosition =
      ((r.nextX dx).toNat, (r.nextY dy).toNat) := by
  have hin := exitEdge_none h
  simp only [cursorPosition, pinTo, Prod.mk.injEq]
  omega

/-- A run stays covered through a motion that leaves its savings alone. -/
lemma covered_motion {edge : Edge} {peak saved : ℤ} (h : Covered peak (r.depth edge) saved)
    (hroomy : Roomy r.layout) (hv : r.layout.Valid) {screen : Screen}
    (hs : r.layout.screen r.currentScreen = some screen) (hw : r.Within edge) {dx dy : Int32}
    (hd : r'.depth edge =
      (r.pinTo (r.nextX dx) (r.nextY dy) screen.width screen.height).depth edge) :
    Covered (max 0 (peak + outward edge (.mouseMove dx dy))) (r'.depth edge) saved := by
  rw [hd, depth_pinTo hs (hv.size hs) hw]
  exact h.pinned (hroomy.spanOf hs edge)

/-- The cursor is at the edge it overflowed. -/
lemma depth_pinTo_exit {screen : Screen} (hs : r.layout.screen r.currentScreen = some screen)
    (hv : r.layout.Valid) {edge : Edge} (hw : r.Within edge) {dx dy : Int32}
    (he : r.exitEdge screen dx dy = some edge) :
    (r.pinTo (r.nextX dx) (r.nextY dy) screen.width screen.height).depth edge = 0 := by
  have hsize := hv.size hs
  have hpos := overflow_pos he
  rw [overflow_eq hs hw] at hpos
  rw [depth_pinTo hs hsize hw]
  have hspan : 0 < (spanOf screen edge : ℤ) := by
    unfold EdgeRouter.spanOf
    split_ifs <;> omega
  omega

/-! ### Pushes -/

/-- The push run on `edge` is covered by the peak of what was routed. -/
structure PushCovered (edge : Edge) (r : EdgeRouter) (peak : ℤ) : Prop where
  linked : r.desk.Linked
  roomy : Roomy r.layout
  run : r.activeRemote = none → r.pushEdge = some edge →
    Covered peak (r.depth edge) r.pushAccum

lemma pushCredit_bounds (r : EdgeRouter) (screen : Screen) (edge : Edge) {overflow : ℤ}
    (h : 0 < overflow) :
    0 ≤ r.pushCredit screen edge overflow ∧ r.pushCredit screen edge overflow ≤ overflow := by
  unfold pushCredit
  simp only [edgePushPx]
  split_ifs <;> omega

lemma savedPush_covered {edge : Edge} {peak : ℤ} (hp : 0 ≤ peak)
    (hrun : r.pushEdge = some edge → Covered peak (r.depth edge) r.pushAccum) {screen : Screen}
    (hs : r.layout.screen r.currentScreen = some screen) (hw : r.Within edge) {dx dy : Int32}
    (he : r.exitEdge screen dx dy = some edge) :
    Covered (max 0 (peak + outward edge (.mouseMove dx dy))) 0
      (r.savedPush screen edge (r.overflow screen edge dx dy)) := by
  have hc := r.pushCredit_bounds screen edge (overflow_pos he)
  have heq := overflow_eq hs hw dx dy
  unfold savedPush
  split_ifs with h
  · exact (hrun h).credit hc.1 (by omega)
  · have hd : 0 ≤ r.depth edge := depth_nonneg edge
    exact covered_start hp hd hc.1 (by omega)

/-- A drive that comes home leaves no push run, and no drive hands off. -/
lemma routed_driving (hl : r.desk.Linked) {target : ScreenId} (ha : r.activeRemote = some target)
    {e : Instant × InputEvent} {reply : RoutedEvent} (hr : r.routed e = some (r', reply)) :
    (r'.activeRemote = none → r'.pushEdge = none) ∧
      ∀ source target edge targetX targetY rest,
        reply ≠ .handoff source target edge targetX targetY rest := by
  obtain ⟨now, event⟩ := e
  rcases route_driving_cases hl ha hr with ⟨-, rfl, rfl⟩ | ⟨dx, dy, remote, rfl, hs, hstep⟩
  · exact ⟨fun hn => absurd hn (by simp [ha]), by simp⟩
  have home : ∀ r₁ : EdgeRouter, r₁.desk = r.desk → ∀ edge,
      (r₁.comeHome now r.currentScreen target edge).1.pushEdge = none := by
    intro r₁ hd edge
    have hl₁ : r₁.desk.Linked := hd ▸ hl
    obtain ⟨screen, hs⟩ := hl₁.localIn
    obtain ⟨x, y, -, he⟩ := restoreLocalAtEdge_home now edge hl₁.valid
      (show r₁.activeRemote = some target from (congrArg Desk.active hd).trans ha) hs
    exact (congrArg EdgeRouter.pushEdge he).trans rfl
  generalize hq : (r', reply) = q at hstep
  cases hstep with
  | roams he =>
    obtain ⟨rfl, rfl⟩ := Prod.mk.inj hq
    refine ⟨fun hn => ?_, by simp⟩
    rw [roam_eq] at hn
    simp [ha] at hn
  | returns edge he hf hd hfire =>
    obtain ⟨rfl, rfl⟩ := Prod.mk.inj hq
    exact ⟨fun _ => home _ (creditReturn_desk _ _ _ _) edge, by simp⟩
  | builds edge he hf hd hfire =>
    obtain ⟨rfl, rfl⟩ := Prod.mk.inj hq
    refine ⟨fun hn => ?_, by simp⟩
    rw [creditReturn_eq] at hn
    simp [pinTo, ha] at hn
  | escapes edge he hf hd hfire =>
    obtain ⟨rfl, rfl⟩ := Prod.mk.inj hq
    exact ⟨fun _ => home _ (shove_desk _ _) edge, by simp⟩
  | shoves edge he hf hd hfire =>
    obtain ⟨rfl, rfl⟩ := Prod.mk.inj hq
    exact ⟨fun hn => by simp [pinTo, shove, ha] at hn, by simp⟩
  | clamps edge he hf =>
    obtain ⟨rfl, rfl⟩ := Prod.mk.inj hq
    exact ⟨fun hn => by simp [pinTo, clearReturnRun, ha] at hn, by simp⟩

/-- **One routed event keeps the push run covered**, and a crossing has the peak it needs. -/
lemma PushCovered.step {edge : Edge} {peak : ℤ} (h : PushCovered edge r peak) (hp : 0 ≤ peak)
    {e : Instant × InputEvent} {reply : RoutedEvent} (hr : r.routed e = some (r', reply)) :
    PushCovered edge r' (max 0 (peak + outward edge e.2)) ∧
      ∀ source target targetX targetY rest,
        reply = .handoff source target edge targetX targetY rest →
          edgePushPx ≤ max 0 (peak + outward edge e.2) := by
  have hl' := route_linked h.linked hr
  have hroomy : Roomy r'.layout := by
    rw [show r'.layout = r.layout from congrArg Settings.layout (route_settings hr)]
    exact h.roomy
  rcases ha : r.activeRemote with _ | target
  swap
  · obtain ⟨hpush, hno⟩ := routed_driving h.linked ha hr
    refine ⟨⟨hl', hroomy, fun hn he => ?_⟩, fun _ _ _ _ _ he => absurd he (hno _ _ _ _ _ _)⟩
    rw [hpush hn] at he
    cases he
  obtain ⟨now, event⟩ := e
  rcases route_local_cases h.linked ha hr with
    ⟨hne, rfl, rfl⟩ | ⟨dx, dy, screen, rfl, hs, hc, hstep⟩
  · rw [outward_other edge hne, add_zero, max_eq_right hp]
    exact ⟨h, by simp⟩
  have hw : ∀ edge, r.Within edge := within_of_bounds hs hc
  have hv : r.layout.Valid := h.linked.valid
  generalize hq : (r', reply) = q at hstep
  cases hstep with
  | inside he =>
    obtain ⟨rfl, rfl⟩ := Prod.mk.inj hq
    refine ⟨⟨hl', hroomy, fun _ hpush => ?_⟩, by simp⟩
    have hpin := pinTo_inside he
    simp only [cursorPosition, Prod.mk.injEq] at hpin
    rw [moveInside_eq] at hpush ⊢
    simp only at hpush
    split_ifs at hpush with hgo
    simp only [if_neg hgo]
    refine covered_motion (h.run ha hpush) h.roomy hv hs (hw edge) ?_
    simp only [depth, moved, pinTo] at hpin ⊢
    rw [hpin.1, hpin.2]
  | held edge' reason he hg =>
    obtain ⟨rfl, rfl⟩ := Prod.mk.inj hq
    exact ⟨⟨hl', hroomy, fun _ hpush => by simp [clearPush] at hpush⟩,
      by simp⟩
  | saving edge' target he hg hb =>
    obtain ⟨rfl, rfl⟩ := Prod.mk.inj hq
    refine ⟨⟨hl', hroomy, fun _ hpush => ?_⟩, by simp⟩
    rw [creditPush_eq] at hpush ⊢
    obtain rfl : edge' = edge := Option.some.inj hpush
    have hcov : Covered (max 0 (peak + outward edge' (.mouseMove dx dy)))
        ((r.pinTo (r.nextX dx) (r.nextY dy) screen.width screen.height).depth edge')
        (r.savedPush screen edge' (r.overflow screen edge' dx dy)) := by
      rw [depth_pinTo_exit hs hv (hw edge') he]
      exact savedPush_covered hp (h.run ha) hs (hw edge') he
    exact hcov
  | crossing edge' target targetScreen he hg hb ht =>
    obtain ⟨rfl, rfl⟩ := Prod.mk.inj hq
    refine ⟨⟨hl', hroomy, fun hn => by simp [crossed] at hn⟩, ?_⟩
    intro source target' targetX targetY rest heq
    obtain ⟨-, -, rfl, -⟩ := RoutedEvent.handoff.inj heq
    have hcov := (savedPush_covered hp (h.run ha) hs (hw edge') he).high
    simp only [edgePushPx, returnPushPx] at hb hcov ⊢
    omega

/-! ### Returns -/

/-- The runs that may bring a drive home through `edge` are covered by the peak of what was
routed. -/
structure ReturnCovered (edge : Edge) (r : EdgeRouter) (peak : ℤ) : Prop where
  linked : r.desk.Linked
  roomy : Roomy r.layout
  /-- Every edge of the driven screen may face home in the mirror style. -/
  inside : r.doubleStyle = .mirror → r.layout.Holds r.currentScreen r.cursorPosition
  run : r.activeRemote ≠ none → r.returnEdge = some edge →
    r.Within edge ∧ Covered peak (r.depth edge) r.returnEdgeAccum
  escape : r.activeRemote ≠ none → r.entryEdge = some edge →
    r.Within edge ∧ Covered peak (r.depth edge) r.returnAccum

/-- A local router has no drive to cover. -/
lemma returnCovered_of_local (hl : r.desk.Linked) (hroomy : Roomy r.layout)
    (hn : r.activeRemote = none) (edge : Edge) (peak : ℤ) : ReturnCovered edge r peak :=
  ⟨hl, hroomy, fun _ => hl.inside hn, fun ha => absurd hn ha, fun ha => absurd hn ha⟩

/-- The cursor is on its screen as far as any edge that faces home is concerned. -/
lemma ReturnCovered.within {edge : Edge} {peak : ℤ} (h : ReturnCovered edge r peak)
    {edge' : Edge} (hf : r.facesHome r.currentScreen edge' = true) : r.Within edge' := by
  obtain ⟨s, hs, hx⟩ := h.linked.column
  unfold facesHome fixedReturnEdge at hf
  rcases hst : r.doubleStyle with _ | _ | _
  · exact within_of_holds (h.inside hst) edge'
  · simp only [hst, decide_eq_true_eq] at hf
    subst hf
    exact ⟨s, hs, hx, fun hv => by cases hv⟩
  · simp only [hst, decide_eq_true_eq] at hf
    subst hf
    exact ⟨s, hs, hx, fun hv => by cases hv⟩

lemma returnCredit_bounds (r : EdgeRouter) {overflow : ℤ} (h : 0 < overflow) :
    0 ≤ r.returnCredit (max overflow 0) ∧ r.returnCredit (max overflow 0) ≤ overflow := by
  unfold returnCredit
  simp only [returnPushPx]
  split_ifs <;> omega

lemma savedReturn_covered {edge : Edge} {peak : ℤ} (hp : 0 ≤ peak)
    (hrun : r.returnEdge = some edge → Covered peak (r.depth edge) r.returnEdgeAccum)
    {screen : Screen} (hs : r.layout.screen r.currentScreen = some screen)
    (hw : r.Within edge) {dx dy : Int32} (he : r.exitEdge screen dx dy = some edge) :
    Covered (max 0 (peak + outward edge (.mouseMove dx dy))) 0
      (r.savedReturn edge (max (r.overflow screen edge dx dy) 0)) := by
  have hc := r.returnCredit_bounds (overflow_pos he)
  have heq := overflow_eq hs hw dx dy
  unfold savedReturn
  split_ifs with h
  · exact (hrun h).credit hc.1 (by omega)
  · have hd : 0 ≤ r.depth edge := depth_nonneg edge
    exact covered_start hp hd hc.1 (by omega)

lemma shove_covered {edge : Edge} {peak : ℤ}
    (hrun : Covered peak (r.depth edge) r.returnAccum)
    {screen : Screen} (hs : r.layout.screen r.currentScreen = some screen)
    (hw : r.Within edge) {dx dy : Int32} (he : r.exitEdge screen dx dy = some edge) :
    Covered (max 0 (peak + outward edge (.mouseMove dx dy))) 0
      (r.shove (max (r.overflow screen edge dx dy) 0)).returnAccum := by
  have hpos := overflow_pos he
  have heq := overflow_eq hs hw dx dy
  exact hrun.credit (by omega) (by omega)

/-- Motion pinned to the driven screen keeps what it leaves alone covered. -/
lemma ReturnCovered.pinned {edge : Edge} {peak : ℤ} (h : ReturnCovered edge r peak)
    {screen : Screen} (hs : r.layout.screen r.currentScreen = some screen) {dx dy : Int32}
    (hl' : r'.desk.Linked) (hset : r'.settings = r.settings)
    (hcur : r'.currentScreen = r.currentScreen)
    (hpos : r'.cursorPosition =
      (r.pinTo (r.nextX dx) (r.nextY dy) screen.width screen.height).cursorPosition)
    (hactive : r.activeRemote ≠ none)
    (hrun : r'.returnEdge = some edge →
      (r.returnEdge = some edge ∧ r'.returnEdgeAccum = r.returnEdgeAccum) ∨
        Covered (max 0 (peak + outward edge (.mouseMove dx dy))) (r'.depth edge)
          r'.returnEdgeAccum)
    (hescape : r'.entryEdge = some edge →
      (r.entryEdge = some edge ∧ r'.returnAccum = r.returnAccum) ∨
        Covered (max 0 (peak + outward edge (.mouseMove dx dy))) (r'.depth edge)
          r'.returnAccum) :
    ReturnCovered edge r' (max 0 (peak + outward edge (.mouseMove dx dy))) := by
  have hlayout : r'.layout = r.layout := congrArg Settings.layout hset
  have hv : r.layout.Valid := h.linked.valid
  have hholds : r'.layout.Holds r'.currentScreen r'.cursorPosition := by
    rw [hlayout, hcur, hpos]
    exact holds_pinned hv hs _ _
  have hdepth : r'.depth edge =
      (r.pinTo (r.nextX dx) (r.nextY dy) screen.width screen.height).depth edge := by
    simp only [cursorPosition, Prod.mk.injEq] at hpos
    unfold depth
    rw [hlayout, hcur, hpos.1, hpos.2]
    rfl
  refine ⟨hl', hlayout ▸ h.roomy, fun _ => hholds, fun _ he => ?_, fun _ he => ?_⟩
  · refine ⟨within_of_holds hholds edge, ?_⟩
    rcases hrun he with ⟨hre, hacc⟩ | hcov
    · obtain ⟨hw, hc⟩ := h.run hactive hre
      rw [hacc]
      exact covered_motion hc h.roomy hv hs hw hdepth
    · exact hcov
  · refine ⟨within_of_holds hholds edge, ?_⟩
    rcases hescape he with ⟨hen, hacc⟩ | hcov
    · obtain ⟨hw, hc⟩ := h.escape hactive hen
      rw [hacc]
      exact covered_motion hc h.roomy hv hs hw hdepth
    · exact hcov

/-- A crossing opens a covered drive. -/
lemma returnCovered_of_handoff (hl : r.desk.Linked) (hroomy : Roomy r.layout)
    (hn : r.activeRemote = none) {now : Instant} {dx dy : Int32} {source target : ScreenId}
    {edge' : Edge} {targetX targetY : ℕ} {rest : InputEvent}
    (h : r.route now (.mouseMove dx dy) =
      some (r', .handoff source target edge' targetX targetY rest)) (edge : Edge) {peak : ℤ}
    (hp : 0 ≤ peak) : ReturnCovered edge r' peak := by
  have hl' := route_linked hl h
  obtain ⟨screen, targetScreen, hs, hc, he, hg, hb, ht, rfl, hland, rfl⟩ := handoff_crossing hl hn h
  obtain ⟨hx, hy⟩ := r.landing_lt screen edge' (hl.valid.size ht)
  refine ⟨hl', hroomy, fun hm => ⟨targetScreen, ht, hx, hy.mpr (Or.inr (Or.inl hm))⟩,
    fun _ hre => by simp [crossed] at hre, fun _ hen => ⟨⟨targetScreen, ht, hx, fun hv => ?_⟩, ?_⟩⟩
  · obtain rfl := Option.some.inj hen
    exact hy.mpr (Or.inr (Or.inl (style_of_vertical_entry hv)))
  · exact covered_zero hp (depth_nonneg edge)

lemma returnFires_budget {now : Instant} {edge : Edge} {overflow : ℤ}
    (h : (r.creditReturn now edge overflow).returnFires now = true) :
    returnBudget r.returnArmed ≤ r.savedReturn edge overflow := by
  rw [creditReturn_eq] at h
  simp only [returnFires, Bool.and_eq_true, decide_eq_true_eq] at h
  exact h.1.1

/-- A run that fires past a home-facing edge had the peak it needs. -/
lemma ReturnCovered.returns_budget {edge : Edge} {peak : ℤ} (h : ReturnCovered edge r peak)
    (hp : 0 ≤ peak) (hactive : r.activeRemote ≠ none) {remote : Screen}
    (hs : r.layout.screen r.currentScreen = some remote) {now : Instant} {dx dy : Int32}
    (he : r.exitEdge remote dx dy = some edge) (hf : r.facesHome r.currentScreen edge = true)
    (hfire : (r.creditReturn now edge
      (max (r.overflow remote edge dx dy) 0)).returnFires now = true) :
    returnBudget r.returnArmed ≤ max 0 (peak + outward edge (.mouseMove dx dy)) :=
  (savedReturn_covered hp (fun hre => (h.run hactive hre).2) hs (h.within hf) he).budget _
    (returnFires_budget hfire)

/-- So had an escape through the edge of entry. -/
lemma ReturnCovered.escapes_budget {edge : Edge} {peak : ℤ} (h : ReturnCovered edge r peak)
    (hactive : r.activeRemote ≠ none) {remote : Screen}
    (hs : r.layout.screen r.currentScreen = some remote) {dx dy : Int32}
    (he : r.exitEdge remote dx dy = some edge) (hd : r.disarmed edge = true)
    (hfire : returnPushPx ≤ (r.shove (max (r.overflow remote edge dx dy) 0)).returnAccum) :
    returnBudget r.returnArmed ≤ max 0 (peak + outward edge (.mouseMove dx dy)) := by
  simp only [disarmed, Bool.and_eq_true, decide_eq_true_eq, Bool.not_eq_true'] at hd
  obtain ⟨hw, hcov⟩ := h.escape hactive hd.1
  refine (shove_covered hcov hs hw he).budget _ ?_
  rw [hd.2]
  exact hfire

/-- **One routed event keeps the return runs covered**, and a return has the peak it needs. -/
lemma ReturnCovered.step {edge : Edge} {peak : ℤ} (h : ReturnCovered edge r peak)
    (hp : 0 ≤ peak) {e : Instant × InputEvent} {reply : RoutedEvent}
    (hr : r.routed e = some (r', reply)) :
    ReturnCovered edge r' (max 0 (peak + outward edge e.2)) ∧
      ∀ source entryEdge armed, reply = .returnHome source edge entryEdge armed →
        returnBudget armed ≤ max 0 (peak + outward edge e.2) := by
  have hl' := route_linked h.linked hr
  have hset := route_settings hr
  have hroomy : Roomy r'.layout := by
    rw [show r'.layout = r.layout from congrArg Settings.layout hset]
    exact h.roomy
  have hv : r.layout.Valid := h.linked.valid
  obtain ⟨now, event⟩ := e
  have hnew : 0 ≤ max 0 (peak + outward edge event) := le_max_left _ _
  rcases ha : r.activeRemote with _ | target
  · -- Local routing opens a drive or leaves none.
    rcases route_local_reply h.linked ha hr with ⟨ha', event', rfl⟩ |
      ⟨dx, dy, source, t, edge', targetX, targetY, rest, rfl, rfl⟩
    · exact ⟨returnCovered_of_local hl' hroomy ha' edge _, by simp⟩
    · exact ⟨returnCovered_of_handoff h.linked h.roomy ha hr edge hnew, by simp⟩
  rcases route_driving_cases h.linked ha hr with
    ⟨hne, rfl, rfl⟩ | ⟨dx, dy, remote, rfl, hs, hstep⟩
  · rw [outward_other edge hne, add_zero, max_eq_right hp]
    exact ⟨h, by simp⟩
  have hactive : r.activeRemote ≠ none := by simp [ha]
  generalize hq : (r', reply) = q at hstep
  cases hstep with
  | roams he =>
    obtain ⟨rfl, rfl⟩ := Prod.mk.inj hq
    refine ⟨h.pinned hs hl' hset (by rw [roam_eq]) ?_ hactive ?_ ?_, by simp⟩
    · rw [pinTo_inside he, roam_eq]
      rfl
    · rw [roam_eq]
      simp only
      split_ifs
      · simp
      · exact fun hre => Or.inl ⟨hre, rfl⟩
    · rw [roam_eq]
      simp only
      split_ifs
      · exact fun _ => Or.inr (covered_zero hnew (depth_nonneg edge))
      · exact fun hen => Or.inl ⟨hen, rfl⟩
  | returns edge' he hf hd hfire =>
    obtain ⟨rfl, rfl⟩ := Prod.mk.inj hq
    have hhome : ((r.creditReturn now edge' (max (r.overflow remote edge' dx dy) 0)).comeHome now
        r.currentScreen target edge').1.activeRemote = none :=
      (comeHome_comesHome (by simpa using h.linked) (by rw [creditReturn_eq]; exact ha) _ _ _).1
    refine ⟨returnCovered_of_local hl' hroomy hhome edge _, ?_⟩
    intro source entryEdge armed heq
    obtain ⟨-, rfl, -, rfl⟩ := RoutedEvent.returnHome.inj heq
    have harmed : (r.creditReturn now edge' (max (r.overflow remote edge' dx dy) 0)).returnArmed =
        r.returnArmed := by rw [creditReturn_eq]
    rw [harmed]
    exact h.returns_budget hp hactive hs he hf hfire
  | builds edge' he hf hd hfire =>
    obtain ⟨rfl, rfl⟩ := Prod.mk.inj hq
    have hw := h.within hf
    refine ⟨h.pinned hs hl' hset (by rw [creditReturn_eq]; rfl) (by rw [creditReturn_eq]; rfl)
      hactive ?_ ?_, by simp⟩
    · rw [creditReturn_eq]
      intro hre
      obtain rfl : edge' = edge := Option.some.inj hre
      have hcov : Covered (max 0 (peak + outward edge' (.mouseMove dx dy)))
          ((r.pinTo (r.nextX dx) (r.nextY dy) remote.width remote.height).depth edge')
          (r.savedReturn edge' (max (r.overflow remote edge' dx dy) 0)) := by
        rw [depth_pinTo_exit hs hv hw he]
        exact savedReturn_covered hp (fun hre => (h.run hactive hre).2) hs hw he
      exact Or.inr hcov
    · rw [creditReturn_eq]
      exact fun hen => Or.inl ⟨hen, rfl⟩
  | escapes edge' he hf hd hfire =>
    obtain ⟨rfl, rfl⟩ := Prod.mk.inj hq
    have hhome : ((r.shove (max (r.overflow remote edge' dx dy) 0)).comeHome now
        r.currentScreen target edge').1.activeRemote = none :=
      (comeHome_comesHome (r := r.shove _) h.linked ha _ _ _).1
    refine ⟨returnCovered_of_local hl' hroomy hhome edge _, ?_⟩
    intro source entryEdge armed heq
    obtain ⟨-, rfl, -, rfl⟩ := RoutedEvent.returnHome.inj heq
    exact h.escapes_budget hactive hs he hd hfire.1
  | shoves edge' he hf hd hfire =>
    obtain ⟨rfl, rfl⟩ := Prod.mk.inj hq
    simp only [disarmed, Bool.and_eq_true, decide_eq_true_eq, Bool.not_eq_true'] at hd
    refine ⟨h.pinned hs hl' hset rfl rfl hactive (fun hre => Or.inl ⟨hre, rfl⟩) ?_, by simp⟩
    intro hen
    obtain rfl : edge' = edge := Option.some.inj (hd.1.symm.trans hen)
    obtain ⟨hw, hcov⟩ := h.escape hactive hd.1
    have hcov' : Covered (max 0 (peak + outward edge' (.mouseMove dx dy)))
        ((r.pinTo (r.nextX dx) (r.nextY dy) remote.width remote.height).depth edge')
        (r.shove (max (r.overflow remote edge' dx dy) 0)).returnAccum := by
      rw [depth_pinTo_exit hs hv hw he]
      exact shove_covered hcov hs hw he
    exact Or.inr hcov'
  | clamps edge' he hf =>
    obtain ⟨rfl, rfl⟩ := Prod.mk.inj hq
    refine ⟨h.pinned hs hl' hset rfl rfl hactive (fun hre => by simp [pinTo, clearReturnRun] at hre)
      (fun _ => Or.inr (covered_zero hnew (depth_nonneg edge))), by simp⟩

/-! ### Windows -/

lemma Reachable.routed (h : r.Reachable) {e : Instant × InputEvent} {reply : RoutedEvent}
    (hr : r.routed e = some (r', reply)) : r'.Reachable := by
  have hs : r.step (.route e.1 e.2) = some (r', .routed reply) := by
    simp only [EdgeRouter.step, show r.route e.1 e.2 = some (r', reply) from hr, Option.map_some]
  exact h.step hs

lemma Reachable.run (h : r.Reachable) {events : List (Instant × InputEvent)}
    {replies : List RoutedEvent} (hr : Run.run EdgeRouter.routed r events = some (r', replies)) :
    r'.Reachable ∧ r'.layout = r.layout := by
  refine Run.invariant_run (I := fun s : EdgeRouter => s.Reachable ∧ s.layout = r.layout) ?_
    ⟨h, rfl⟩ hr
  rintro s e s' reply ⟨hs, hlayout⟩ hstep
  exact ⟨hs.routed hstep,
    (congrArg Settings.layout (route_settings hstep)).trans hlayout⟩

/-- A drive that has just opened, by a crossing or at a peer's request. -/
inductive Opened (r : EdgeRouter) : Prop
  | handoff (r₀ : EdgeRouter) (now : Instant) (dx dy : Int32) (source target : ScreenId)
    (edge : Edge) (targetX targetY : ℕ) (rest : InputEvent) (h : r₀.Reachable)
    (hn : r₀.activeRemote = none)
    (hr : r₀.route now (.mouseMove dx dy) =
      some (r, .handoff source target edge targetX targetY rest))
  | request (r₀ : EdgeRouter) (now : Instant) (target : ScreenId) (x y : ℕ) (h : r₀.Reachable)
    (hr : r₀.handoffTo now target x y = (r, .ok true))

lemma Opened.returnCovered (h : r.Opened) (hr : r.Reachable) (hroomy : Roomy r.layout)
    (edge : Edge) : ReturnCovered edge r 0 := by
  cases h with
  | handoff r₀ now dx dy source target edge' targetX targetY rest h₀ hn hroute =>
    have hlayout : r.layout = r₀.layout := congrArg Settings.layout (route_settings hroute)
    exact returnCovered_of_handoff h₀.linked (hlayout ▸ hroomy) hn hroute edge le_rfl
  | request r₀ now target x y h₀ hto =>
    have hl := hr.linked
    unfold handoffTo at hto
    rcases ht : r₀.layout.screen target with _ | targetScreen
    · simp [ht] at hto
    simp only [ht] at hto
    split_ifs at hto with hloc
    · simp at hto
    all_goals
      obtain ⟨rfl, -⟩ := Prod.mk.inj hto
      exact ⟨hl, hroomy, fun _ => h₀.linked.valid.holds ht x y, by simp, by simp⟩

/-- A crossing takes a window of its whole budget. -/
lemma handoff_window (h : r.Reachable) (hroomy : Roomy r.layout)
    {events : List (Instant × InputEvent)} {e : Instant × InputEvent} {r₁ r₂ : EdgeRouter}
    {replies : List RoutedEvent} (hrun : Run.run routed r events = some (r₁, replies))
    {source target : ScreenId} {edge : Edge} {targetX targetY : ℕ} {rest : InputEvent}
    (hlast : r₁.routed e = some (r₂, .handoff source target edge targetX targetY rest))
    (hwhole : Run.Visits routed (fun s => s.pushEdge ≠ some edge) r events) :
    ∃ window, window <:+ events ++ [e] ∧ edgePushPx ≤ net edge window := by
  obtain ⟨m, k, s, os₁, os₂, rfl, hm, hs, hk⟩ := hwhole.rest hrun
  obtain ⟨hreach, hlayout⟩ := h.run hm
  have hstart : PushCovered edge s 0 :=
    ⟨hreach.linked, hlayout ▸ hroomy, fun _ he => absurd he hs⟩
  obtain ⟨window, hw, hb⟩ := Window.exists_window_of_budget (fun e => outward edge e.2)
    (fun s a s' o p hp hI hstep => (hI.step hp hstep).1) hstart hk
    (fun p hp hI => (hI.step hp hlast).2 _ _ _ _ _ rfl)
  exact ⟨window, (List.append_assoc m k [e]) ▸ hw.trans (List.suffix_append m _), hb⟩

/-- A return takes a window of its whole budget. -/
lemma return_window (h : r.Reachable) (hroomy : Roomy r.layout)
    {events : List (Instant × InputEvent)} {e : Instant × InputEvent} {r₁ r₂ : EdgeRouter}
    {replies : List RoutedEvent} (hrun : Run.run routed r events = some (r₁, replies))
    {source : ScreenId} {edge : Edge} {entryEdge : Option Edge} {armed : Bool}
    (hlast : r₁.routed e = some (r₂, .returnHome source edge entryEdge armed))
    (hwhole : Run.Visits routed (fun s => s.activeRemote = none ∨ s.Opened) r events) :
    ∃ window, window <:+ events ++ [e] ∧ returnBudget armed ≤ net edge window := by
  obtain ⟨m, k, s, os₁, os₂, rfl, hm, hs, hk⟩ := hwhole.rest hrun
  obtain ⟨hreach, hlayout⟩ := h.run hm
  have hstart : ReturnCovered edge s 0 := by
    rcases hs with hn | hopen
    · exact returnCovered_of_local hreach.linked (hlayout ▸ hroomy) hn edge 0
    · exact hopen.returnCovered hreach (hlayout ▸ hroomy) edge
  obtain ⟨window, hw, hb⟩ := Window.exists_window_of_budget (fun e => outward edge e.2)
    (fun s a s' o p hp hI hstep => (hI.step hp hstep).1) hstart hk
    (fun p hp hI => (hI.step hp hlast).2 _ _ _ rfl)
  exact ⟨window, (List.append_assoc m k [e]) ▸ hw.trans (List.suffix_append m _), hb⟩

/-- No window of `events` toward any edge adds up to `budget`. -/
def Jittery (events : List (Instant × InputEvent)) (budget : ℤ) : Prop :=
  ∀ edge window, window <:+: events → net edge window < budget

/-- **Jitter neither crosses nor returns.** A crossing whose push run was routed whole, and a
return whose drive was, come with a window of motions that ends with them and goes the
whole budget toward their edge. So motions whose every window stays below a budget never
spend it. -/
theorem jitter_never_fires (h : r.Reachable) (hroomy : Roomy r.layout)
    {events : List (Instant × InputEvent)} {r₁ : EdgeRouter} {replies : List RoutedEvent}
    (hrun : Run.run routed r events = some (r₁, replies)) :
    (∀ e r₂ source target edge targetX targetY rest,
      r₁.routed e = some (r₂, .handoff source target edge targetX targetY rest) →
      Run.Visits routed (fun s => s.pushEdge ≠ some edge) r events →
        ∃ window, window <:+ events ++ [e] ∧ edgePushPx ≤ net edge window) ∧
    (∀ e r₂ source edge entryEdge armed,
      r₁.routed e = some (r₂, .returnHome source edge entryEdge armed) →
      Run.Visits routed (fun s => s.activeRemote = none ∨ s.Opened) r events →
        ∃ window, window <:+ events ++ [e] ∧
          (if armed then returnEdgePx else returnPushPx) ≤ net edge window) ∧
    (r.pushEdge = none → Jittery events edgePushPx →
      ∀ source target edge targetX targetY rest,
        RoutedEvent.handoff source target edge targetX targetY rest ∉ replies) ∧
    (r.activeRemote = none ∨ r.Opened → ∀ armed,
      Jittery events (if armed then returnEdgePx else returnPushPx) →
        ∀ source edge entryEdge, RoutedEvent.returnHome source edge entryEdge armed ∉ replies) := by
  refine ⟨fun e r₂ source target edge targetX targetY rest hlast hwhole =>
      handoff_window h hroomy hrun hlast hwhole,
    fun e r₂ source edge entryEdge armed hlast hwhole =>
      return_window h hroomy hrun hlast hwhole, ?_, ?_⟩
  · intro hpush hjitter source target edge targetX targetY rest hmem
    obtain ⟨m, e, k, s, os, s', rfl, hm, hs⟩ := Run.exists_step_of_mem hrun hmem
    obtain ⟨window, hw, hb⟩ := handoff_window h hroomy hm hs
      (Run.visits_start (by simp [hpush]) m)
    have hin : window <:+: m ++ e :: k := by
      refine hw.isInfix.trans ⟨[], k, ?_⟩
      simp
    exact absurd (hjitter edge window hin) (not_lt.mpr hb)
  · intro hopen armed hjitter source edge entryEdge hmem
    obtain ⟨m, e, k, s, os, s', rfl, hm, hs⟩ := Run.exists_step_of_mem hrun hmem
    obtain ⟨window, hw, hb⟩ := return_window h hroomy hm hs
      (Run.visits_start (P := fun s : EdgeRouter => s.activeRemote = none ∨ s.Opened) hopen m)
    have hin : window <:+: m ++ e :: k := by
      refine hw.isInfix.trans ⟨[], k, ?_⟩
      simp
    exact absurd (hjitter edge window hin) (not_lt.mpr hb)

theorem jitter_never_fires_twoScreens :
    (∃ window, window <:+ [((0 : Instant), InputEvent.mouseMove 4 0), (0, .mouseMove 4 0)] ∧
      edgePushPx ≤ net .right window) ∧
    ∃ window, window <:+ [((0 : Instant), InputEvent.mouseMove 4 0), (0, .mouseMove 4 0),
      (0, .mouseMove (-50) 0), (0, .mouseMove (-50) 0)] ∧ returnPushPx ≤ net .left window := by
  obtain ⟨r, hr, hroomy, hpush, hn, ⟨r₁, os₁, h₁, r₂, hcross⟩, r₃, os₃, h₃, r₄, hhome⟩ :
      ∃ r : EdgeRouter, r.Reachable ∧ Roomy r.layout ∧ r.pushEdge ≠ some .right ∧
        r.activeRemote = none ∧
        (∃ r₁ os, Run.run routed r [(0, .mouseMove 4 0)] = some (r₁, os) ∧
          ∃ r₂, r₁.routed (0, .mouseMove 4 0) =
            some (r₂, .handoff ⟨1⟩ ⟨2⟩ .right 32 370 (.mouseMove 4 0))) ∧
        ∃ r₃ os, Run.run routed r [(0, .mouseMove 4 0), (0, .mouseMove 4 0),
            (0, .mouseMove (-50) 0)] = some (r₃, os) ∧
          ∃ r₄, r₃.routed (0, .mouseMove (-50) 0) =
            some (r₄, .returnHome ⟨2⟩ .left (some .left) false) := by
    refine ⟨_, ⟨twoScreens 1 0 1280 800, _, [.placeLocalCursor 1919 500], _, rfl, rfl⟩,
      ?_, by decide, rfl, ⟨_, _, rfl, _, rfl⟩, _, _, rfl, _, rfl⟩
    unfold Roomy
    decide
  exact ⟨(jitter_never_fires hr hroomy h₁).1 _ _ _ _ _ _ _ _ hcross ⟨[], _, r, [], rfl, rfl, hpush⟩,
    (jitter_never_fires hr hroomy h₃).2.1 _ _ _ _ _ _ hhome ⟨[], _, r, [], rfl, rfl, Or.inl hn⟩⟩

end EdgeRouter

end TheKvm

import TheKvm.Core.Return

/-!
The edge mode and the style, changed under a router.

Two routers that differ only in these settings route alike until a step reads one of them:
a crossing reads the style for the edge of entry, an overflow of the driven screen reads
both for the edges that face home and for the edge a return lands at.
-/

namespace TheKvm

namespace EdgeRouter

variable {r r' : EdgeRouter}

/-- The same router under other settings. -/
def tuned (r : EdgeRouter) (mode : EdgeMode) (style : DoubleEdgeStyle) : EdgeRouter :=
  { r with edgeMode := mode, doubleStyle := style }

/-! ### A drive, read by its settings -/

/-- The run an overflow past a home-facing edge adds to. -/
def bank (r : EdgeRouter) (now : Instant) (edge : Edge) (overflow : ℤ) : EdgeRouter :=
  if r.disarmed edge then r.shove overflow else r.creditReturn now edge overflow

/-- Whether an overflow past a home-facing edge comes home. -/
def homing (r : EdgeRouter) (now : Instant) (edge : Edge) (overflow : ℤ) : Bool :=
  if r.disarmed edge then
    returnPushPx ≤ (r.shove overflow).returnAccum && !r.inHandoffGrace now
  else (r.creditReturn now edge overflow).returnFires now

lemma press_eq (r : EdgeRouter) (now : Instant) (source target : ScreenId) (remote : Screen)
    (edge : Edge) (nextX nextY : ℤ) (event : InputEvent) :
    r.press now source target remote edge nextX nextY event =
      if r.facesHome source edge then
        if r.homing now edge (max (overflowPast edge nextX nextY remote.width remote.height) 0) then
          (r.bank now edge
            (max (overflowPast edge nextX nextY remote.width remote.height) 0)).comeHome
              now source target edge
        else
          ((r.bank now edge
            (max (overflowPast edge nextX nextY remote.width remote.height) 0)).pinTo
              nextX nextY remote.width remote.height, .forward target event)
      else
        (r.clearReturnRun.pinTo nextX nextY remote.width remote.height,
          .forward target event) := by
  have hd : (decide (r.entryEdge = some edge) && !r.returnArmed) = r.disarmed edge := rfl
  unfold press homing bank
  simp only [hd]
  rcases r.facesHome source edge
  · simp
  rcases r.disarmed edge
  · simp
  · simp only [Bool.not_true, Bool.and_false, Bool.false_eq_true, if_false, if_true]
    rfl

lemma bank_tuned (mode : EdgeMode) (style : DoubleEdgeStyle) (now : Instant) (edge : Edge)
    (overflow : ℤ) :
    (r.tuned mode style).bank now edge overflow = (r.bank now edge overflow).tuned mode style := by
  unfold bank
  have hd : (r.tuned mode style).disarmed edge = r.disarmed edge := rfl
  rw [hd, creditReturn_eq, creditReturn_eq]
  by_cases h : r.disarmed edge
  · rw [if_pos h, if_pos h]
    rfl
  · rw [if_neg h, if_neg h]
    rfl

lemma homing_tuned (mode : EdgeMode) (style : DoubleEdgeStyle) (now : Instant) (edge : Edge)
    (overflow : ℤ) :
    (r.tuned mode style).homing now edge overflow = r.homing now edge overflow := by
  unfold homing
  have hd : (r.tuned mode style).disarmed edge = r.disarmed edge := rfl
  rw [hd, creditReturn_eq, creditReturn_eq]
  rfl

/-- A return that lands at one edge lands at one pixel. -/
lemma comeHome_tuned {mode : EdgeMode} {style : DoubleEdgeStyle} (now : Instant)
    (source target : ScreenId) {edge : Edge}
    (hland : (r.tuned mode style).landingEdge edge = r.landingEdge edge) :
    (r.tuned mode style).comeHome now source target edge =
      ((r.comeHome now source target edge).1.tuned mode style,
        (r.comeHome now source target edge).2) := by
  have hrestore : ((r.tuned mode style).restoreLocalAtEdge now target edge).1 =
      (r.restoreLocalAtEdge now target edge).1.tuned mode style := by
    by_cases ha : r.activeRemote = some target
    · rcases hs : r.layout.screen r.localScreen with _ | screen
      · rw [restoreLocalAtEdge_refused now edge (Or.inr hs),
          restoreLocalAtEdge_refused (r := r.tuned mode style) now edge (Or.inr hs)]
      · rw [restoreLocalAtEdge_eq now edge ha hs,
          restoreLocalAtEdge_eq (r := r.tuned mode style) now edge ha hs, hland]
        rfl
    · rw [restoreLocalAtEdge_refused now edge (Or.inl ha),
        restoreLocalAtEdge_refused (r := r.tuned mode style) now edge (Or.inl ha)]
  unfold comeHome
  rw [hrestore]
  rfl

/-- What a motion on a driven screen reads of the settings agrees with `mode` and `style`:
whether the overflowed edge faces home and, if control comes home, where it lands. -/
def HomeAgrees (r : EdgeRouter) (mode : EdgeMode) (style : DoubleEdgeStyle) (now : Instant)
    (dx dy : Int32) : Prop :=
  ∀ remote edge, r.layout.screen r.currentScreen = some remote →
    r.exitEdge remote dx dy = some edge →
      ((r.tuned mode style).facesHome r.currentScreen edge ↔ r.facesHome r.currentScreen edge) ∧
      (r.facesHome r.currentScreen edge →
        r.homing now edge (max (r.overflow remote edge dx dy) 0) →
          (r.tuned mode style).landingEdge edge = r.landingEdge edge)

/-- **Settings a drive does not read do not disturb it.** -/
theorem routeDriving_tuned {mode : EdgeMode} {style : DoubleEdgeStyle} {now : Instant}
    {event : InputEvent}
    (h : ∀ dx dy, event = .mouseMove dx dy → r.HomeAgrees mode style now dx dy)
    (target : ScreenId) :
    (r.tuned mode style).routeDriving now target event =
      ((r.routeDriving now target event).1.tuned mode style,
        (r.routeDriving now target event).2) := by
  by_cases hmove : ∃ dx dy, event = .mouseMove dx dy
  swap
  · have hne : ∀ dx dy, event ≠ .mouseMove dx dy := fun dx dy he => hmove ⟨dx, dy, he⟩
    rw [routeDriving_other now target hne, routeDriving_other now target hne]
  obtain ⟨dx, dy, rfl⟩ := hmove
  rcases hs : r.layout.screen r.currentScreen with _ | remote
  · have hs' : (r.tuned mode style).layout.screen (r.tuned mode style).currentScreen = none := hs
    unfold routeDriving
    simp only [hs, hs']
  have hs' : (r.tuned mode style).layout.screen (r.tuned mode style).currentScreen = some remote :=
    hs
  rw [routeDriving_eq hs, routeDriving_eq hs']
  have hexit : (r.tuned mode style).exitEdge remote dx dy = r.exitEdge remote dx dy := rfl
  rw [hexit]
  rcases he : r.exitEdge remote dx dy with _ | edge
  · simp only [roam_eq]
    rfl
  obtain ⟨hf, hland⟩ := h dx dy rfl remote edge hs he
  simp only [press_eq]
  have hnext : (r.tuned mode style).nextX dx = r.nextX dx ∧
      (r.tuned mode style).nextY dy = r.nextY dy := ⟨rfl, rfl⟩
  have hcur : (r.tuned mode style).currentScreen = r.currentScreen := rfl
  rw [hnext.1, hnext.2, hcur, homing_tuned, bank_tuned]
  have ho : overflowPast edge (r.nextX dx) (r.nextY dy) remote.width remote.height =
    r.overflow remote edge dx dy := rfl
  rw [ho]
  by_cases hface : r.facesHome r.currentScreen edge
  · rw [if_pos (hf.mpr hface), if_pos hface]
    by_cases hhome : r.homing now edge (max (r.overflow remote edge dx dy) 0)
    · rw [if_pos hhome, if_pos hhome]
      have hbank : ((r.bank now edge (max (r.overflow remote edge dx dy) 0)).tuned mode
          style).landingEdge edge =
            (r.bank now edge (max (r.overflow remote edge dx dy) 0)).landingEdge edge := by
        have := hland hface hhome
        unfold bank
        rw [creditReturn_eq]
        split_ifs <;> exact this
      exact comeHome_tuned now _ target hbank
    · rw [if_neg hhome, if_neg hhome]
      rfl
  · rw [if_neg (mt hf.mp hface), if_neg hface]
    rfl

end EdgeRouter

/-- The calls a drive sees: routed events and the two live settings. -/
def Op.InDrive : Op → Prop
  | .route _ _ | .setEdgeMode _ | .setDoubleStyle _ => True
  | _ => False

def Op.isRoute : Op → Bool
  | .route _ _ => true
  | _ => false

/-- The event a call routed. -/
def Reply.event : Reply → Option RoutedEvent
  | .routed event => some event
  | _ => Option.none

namespace EdgeRouter

variable {r r' : EdgeRouter}

/-- The condition under which a call in a drive cannot tell the settings changed since from
`mode` and `style`, those the drive had. -/
def SettingsBlind (mode : EdgeMode) (style : DoubleEdgeStyle) (r : EdgeRouter) : Op → Prop
  | .route now (.mouseMove dx dy) => r.HomeAgrees mode style now dx dy
  | _ => True

lemma step_tuned {mode : EdgeMode} {style : DoubleEdgeStyle} {op : Op}
    (ha : r.activeRemote ≠ none) (h : r.SettingsBlind mode style op) (hop : op.isRoute = true)
    {reply : Reply} (hs : r.step op = some (r', reply)) :
    (r.tuned mode style).step op = some (r'.tuned mode style, reply) := by
  cases op with
  | route now event =>
    obtain ⟨target, ha⟩ := Option.ne_none_iff_exists'.mp ha
    have hagree : ∀ dx dy, event = .mouseMove dx dy → r.HomeAgrees mode style now dx dy := by
      rintro dx dy rfl
      exact h
    have ha' : (r.tuned mode style).activeRemote = some target := ha
    simp only [step, route_driving ha, Option.map_some, Option.some.injEq] at hs
    obtain ⟨rfl, rfl⟩ := Prod.mk.inj hs
    simp only [step, route_driving ha', routeDriving_tuned hagree target, Option.map_some]
  | _ => cases hop

/-- **Where live settings leave a drive alone.** Through a drive whose overflows mean the
same under the settings of its start as under those in force, the calls that change them
make no difference to any routed event nor to where the cursors end. -/
theorem settings_leave_drive (r r₁ : EdgeRouter) (ops : List Op) (replies : List Reply)
    (hblind : Run.Each step (fun s op => s.activeRemote ≠ none ∧ op.InDrive ∧
      s.SettingsBlind r.edgeMode r.doubleStyle op) r ops)
    (hrun : Run.run step r ops = some (r₁, replies)) :
    ∃ r₂ replies', Run.run step r (ops.filter Op.isRoute) = some (r₂, replies') ∧
      replies'.filterMap Reply.event = replies.filterMap Reply.event ∧
      r₂.cursorPosition = r₁.cursorPosition ∧
      r₂.localCursorPosition = r₁.localCursorPosition := by
  obtain ⟨replies', hrun', hview⟩ := Run.run_erase
    (fun s : EdgeRouter => s.tuned r.edgeMode r.doubleStyle) Op.isRoute Reply.event
    (fun s op s' reply hP hop hs => ⟨reply, step_tuned hP.1 hP.2.2 hop hs, rfl⟩)
    (fun s op s' reply hP hop hs => by
      cases op with
      | route now event => cases hop
      | setEdgeMode mode =>
        obtain ⟨rfl, rfl⟩ := Prod.mk.inj (Option.some.inj hs)
        exact ⟨rfl, rfl⟩
      | setDoubleStyle style =>
        obtain ⟨rfl, rfl⟩ := Prod.mk.inj (Option.some.inj hs)
        exact ⟨rfl, rfl⟩
      | _ => exact hP.2.1.elim) hblind hrun
  exact ⟨r₁.tuned r.edgeMode r.doubleStyle, replies', hrun', hview, rfl, rfl⟩

theorem settings_leave_drive_twoScreens : ∃ r r₁ r₂ : EdgeRouter, ∃ replies replies',
    r.Reachable ∧ r.activeRemote = some ⟨2⟩ ∧
      Run.run step r [.setDoubleStyle .fixedLeft, .route 0 (.mouseMove (-5) 3)] =
        some (r₁, replies) ∧
      Run.run step r [.route 0 (.mouseMove (-5) 3)] = some (r₂, replies') ∧
      replies'.filterMap Reply.event = replies.filterMap Reply.event := by
  obtain ⟨r, r₁, replies, hr, ha, hblind, hrun⟩ : ∃ r r₁ : EdgeRouter, ∃ replies,
      r.Reachable ∧ r.activeRemote = some ⟨2⟩ ∧
      Run.Each step (fun s op => s.activeRemote ≠ none ∧ op.InDrive ∧
        s.SettingsBlind r.edgeMode r.doubleStyle op) r
        [.setDoubleStyle .fixedLeft, .route 0 (.mouseMove (-5) 3)] ∧
      Run.run step r [.setDoubleStyle .fixedLeft, .route 0 (.mouseMove (-5) 3)] =
        some (r₁, replies) := by
    refine ⟨_, _, _, ⟨twoScreens 1 0 1280 800, _,
      [.placeLocalCursor 1919 500, .route 0 (.mouseMove 40 0)], _, rfl, rfl⟩, rfl, ?_, rfl⟩
    refine ⟨⟨by decide, trivial, trivial⟩, fun r' reply hs => ?_⟩
    obtain ⟨rfl, -⟩ := Prod.mk.inj (Option.some.inj hs)
    refine ⟨⟨by decide, trivial, fun remote edge hs he => ?_⟩, fun _ _ _ => trivial⟩
    obtain rfl := Option.some.inj hs
    cases he
  obtain ⟨r₂, replies', hrun', hview, -⟩ := settings_leave_drive r r₁ _ replies hblind hrun
  exact ⟨r, r₁, r₂, replies, replies', hr, ha, hrun, hrun', hview⟩

/-- A style set in the middle of a drive closes the way home it came in through. -/
theorem style_strands_drive :
    ¬∀ (r r₁ r₂ : EdgeRouter) (ops : List Op) (replies replies' : List Reply), r.Reachable →
      Run.Each step (fun s op => s.activeRemote ≠ none ∧ op.InDrive) r ops →
      Run.run step r ops = some (r₁, replies) →
      Run.run step r (ops.filter Op.isRoute) = some (r₂, replies') →
        replies'.filterMap Reply.event = replies.filterMap Reply.event := by
  intro h
  have heq := h _ _ _ [.setDoubleStyle .fixedRight, .route 0 (.mouseMove (-100) 0)] _ _
    ⟨twoScreens 1 0 1280 800, _, [.placeLocalCursor 1919 500, .route 0 (.mouseMove 40 0)], _,
      rfl, rfl⟩ (by
      refine ⟨⟨by decide, trivial⟩, fun r' reply hs => ?_⟩
      obtain ⟨rfl, -⟩ := Prod.mk.inj (Option.some.inj hs)
      exact ⟨⟨by decide, trivial⟩, fun _ _ _ => trivial⟩) rfl rfl
  exact absurd heq (by decide)

end EdgeRouter

end TheKvm

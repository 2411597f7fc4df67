import TheKvm.Core.Hop
import TheKvm.Core.Tuning

/-!
The double-edge style, told apart by what it changes.

The field is documented as read on a lone-peer double link only; `route` and the stateless
hop read it on every link. Two styles route alike as long as every crossing enters through
the edge both name and every overflow of the driven screen means the same to both.
-/

namespace TheKvm

/-- The calls that move a cursor from one machine to another. -/
def Op.Travels : Op → Prop
  | .route _ _ | .resyncIfLocal _ _ | .handoffTo _ _ _ _ | .returnToLocal _ _ _ => True
  | _ => False

namespace EdgeRouter

variable {r r' : EdgeRouter}

/-- What a local motion reads of the style agrees with `style`: the edge a crossing enters
through. -/
def EntryAgrees (r : EdgeRouter) (style : DoubleEdgeStyle) (now : Instant) (dx dy : Int32) :
    Prop :=
  ∀ screen edge target, r.layout.screen r.currentScreen = some screen →
    r.exitEdge screen dx dy = some edge → r.gate now edge = .ok target →
    edgePushPx ≤ r.savedPush screen edge (r.overflow screen edge dx dy) →
      style.entryForExit edge = r.doubleStyle.entryForExit edge

/-- The condition under which one call cannot tell `style` from the router's own. -/
def StyleBlind (style : DoubleEdgeStyle) (r : EdgeRouter) : Op → Prop
  | .route now (.mouseMove dx dy) =>
    (r.activeRemote = none → r.EntryAgrees style now dx dy) ∧
      (r.activeRemote ≠ none → r.HomeAgrees r.edgeMode style now dx dy)
  | _ => True

lemma tuned_eq_setDoubleStyle {mode : EdgeMode} (h : r.edgeMode = mode)
    (style : DoubleEdgeStyle) : r.tuned mode style = r.setDoubleStyle style := by
  subst h
  rfl

lemma savedPush_setDoubleStyle (style : DoubleEdgeStyle) (screen : Screen) (edge : Edge)
    (overflow : ℤ) :
    (r.setDoubleStyle style).savedPush screen edge overflow = r.savedPush screen edge overflow :=
  rfl

/-- Local motion under another style. -/
lemma routeLocal_setDoubleStyle {style : DoubleEdgeStyle} {now : Instant} {dx dy : Int32}
    (h : r.EntryAgrees style now dx dy) :
    (r.setDoubleStyle style).routeLocal now dx dy =
      (r.routeLocal now dx dy).map fun p => (p.1.setDoubleStyle style, p.2) := by
  rcases hs : r.layout.screen r.currentScreen with _ | screen
  · have hs' : (r.setDoubleStyle style).layout.screen (r.setDoubleStyle style).currentScreen =
        none := hs
    unfold routeLocal
    simp only [hs, hs', Option.map_none]
  have hs' : (r.setDoubleStyle style).layout.screen (r.setDoubleStyle style).currentScreen =
      some screen := hs
  rw [routeLocal_eq hs, routeLocal_eq hs']
  have hexit : (r.setDoubleStyle style).exitEdge screen dx dy = r.exitEdge screen dx dy := rfl
  rw [hexit]
  rcases he : r.exitEdge screen dx dy with _ | edge
  · simp only [moveInside_eq, Option.map_some]
    rfl
  have hgate : (r.setDoubleStyle style).gate now edge = r.gate now edge := rfl
  have hover : (r.setDoubleStyle style).overflow screen edge dx dy =
      r.overflow screen edge dx dy := rfl
  simp only [push_eq, hgate, hover]
  rcases hg : r.gate now edge with reason | target
  · rfl
  have hentry := h screen edge target hs he hg
  simp only [creditPush_eq, savedPush_setDoubleStyle]
  split_ifs with hb
  · rfl
  have hlayout : (r.setDoubleStyle style).layout = r.layout := rfl
  rw [hlayout]
  rcases r.layout.screen target with _ | targetScreen
  · rfl
  have hland : (r.setDoubleStyle style).landing screen targetScreen edge =
      r.landing screen targetScreen edge := by
    unfold landing landingFrom
    rw [← hentry (not_lt.mp hb)]
    rfl
  have hcrossed : (r.setDoubleStyle style).crossed now screen targetScreen target edge =
      (r.crossed now screen targetScreen target edge).setDoubleStyle style := by
    unfold crossed
    rw [hland, ← hentry (not_lt.mp hb)]
    rfl
  simp only [Option.map_some, hland, hcrossed]
  rfl

lemma route_setDoubleStyle {style : DoubleEdgeStyle} {now : Instant} {event : InputEvent}
    (h : r.StyleBlind style (.route now event)) :
    (r.setDoubleStyle style).route now event =
      (r.route now event).map fun p => (p.1.setDoubleStyle style, p.2) := by
  rcases ha : r.activeRemote with _ | target
  · have ha' : (r.setDoubleStyle style).activeRemote = none := ha
    by_cases hmove : ∃ dx dy, event = .mouseMove dx dy
    · obtain ⟨dx, dy, rfl⟩ := hmove
      rw [route_local ha, route_local ha', routeLocal_setDoubleStyle (h.1 ha)]
    · have hne : ∀ dx dy, event ≠ .mouseMove dx dy := fun dx dy he => hmove ⟨dx, dy, he⟩
      rw [route_local_other ha hne, route_local_other ha' hne]
      rfl
  · have ha' : (r.setDoubleStyle style).activeRemote = some target := ha
    have hagree : ∀ dx dy, event = .mouseMove dx dy →
        r.HomeAgrees r.edgeMode style now dx dy := by
      rintro dx dy rfl
      exact h.2 (by simp [ha])
    have htuned := routeDriving_tuned hagree target
    have hmode : (r.routeDriving now target event).1.edgeMode = r.edgeMode :=
      congrArg Settings.edgeMode (routeDriving_settings r now target event)
    rw [tuned_eq_setDoubleStyle rfl, tuned_eq_setDoubleStyle hmode] at htuned
    rw [route_driving ha, route_driving ha', htuned]
    rfl

lemma resyncIfLocal_setDoubleStyle (style : DoubleEdgeStyle) (x y : ℕ) :
    (r.setDoubleStyle style).resyncIfLocal x y = (r.resyncIfLocal x y).setDoubleStyle style := by
  rcases r.home_cases with h | ⟨screen, hn, hc, hs⟩
  · rw [resyncIfLocal_refused x y h, resyncIfLocal_refused (r := r.setDoubleStyle style) x y h]
  · rw [resyncIfLocal_eq x y hn hc hs,
      resyncIfLocal_eq (r := r.setDoubleStyle style) x y hn hc hs]
    rfl

lemma handoffTo_setDoubleStyle (style : DoubleEdgeStyle) (now : Instant) (target : ScreenId)
    (x y : ℕ) :
    (r.setDoubleStyle style).handoffTo now target x y =
      ((r.handoffTo now target x y).1.setDoubleStyle style, (r.handoffTo now target x y).2) := by
  have hlayout : (r.setDoubleStyle style).layout = r.layout := rfl
  have hlocal : (r.setDoubleStyle style).localScreen = r.localScreen := rfl
  have hcurrent : (r.setDoubleStyle style).currentScreen = r.currentScreen := rfl
  unfold handoffTo
  rw [hlayout, hlocal, hcurrent]
  rcases r.layout.screen target with _ | targetScreen
  · rfl
  by_cases ht : r.localScreen = target
  · simp only [if_pos ht]
    rfl
  · by_cases hc : r.currentScreen = r.localScreen
    · simp only [if_neg ht, if_pos hc]
      rfl
    · simp only [if_neg ht, if_neg hc]
      rfl

lemma returnToLocal_setDoubleStyle (style : DoubleEdgeStyle) (source : ScreenId) (x y : ℕ) :
    (r.setDoubleStyle style).returnToLocal source x y =
      ((r.returnToLocal source x y).1.setDoubleStyle style, (r.returnToLocal source x y).2) := by
  have hlayout : (r.setDoubleStyle style).layout = r.layout := rfl
  have hlocal : (r.setDoubleStyle style).localScreen = r.localScreen := rfl
  have hactive : (r.setDoubleStyle style).activeRemote = r.activeRemote := rfl
  unfold returnToLocal
  rw [hlayout, hlocal, hactive]
  by_cases ha : r.activeRemote = some source
  · simp only [ha, ne_eq, not_true_eq_false, if_false]
    rcases r.layout.screen r.localScreen <;> rfl
  · simp only [ne_eq, ha, not_false_eq_true, if_true]

/-- **One call that is blind to the style.** -/
lemma step_setDoubleStyle {style : DoubleEdgeStyle} {op : Op} (hop : op.Travels)
    (h : r.StyleBlind style op) {reply : Reply} (hs : r.step op = some (r', reply)) :
    (r.setDoubleStyle style).step op = some (r'.setDoubleStyle style, reply) := by
  cases op with
  | route now event =>
    obtain ⟨p, hp, hpe⟩ := Option.map_eq_some_iff.mp hs
    obtain ⟨rfl, rfl⟩ := Prod.mk.inj hpe
    simp only [step, route_setDoubleStyle h, hp, Option.map_some]
  | resyncIfLocal x y =>
    obtain ⟨rfl, rfl⟩ := Prod.mk.inj (Option.some.inj hs)
    simp only [step, resyncIfLocal_setDoubleStyle]
  | handoffTo now target x y =>
    obtain ⟨rfl, rfl⟩ := Prod.mk.inj (Option.some.inj hs)
    simp only [step, handoffTo_setDoubleStyle]
  | returnToLocal source x y =>
    obtain ⟨rfl, rfl⟩ := Prod.mk.inj (Option.some.inj hs)
    simp only [step, returnToLocal_setDoubleStyle]
  | _ => exact hop.elim

/-- The stateless hop tells two styles apart exactly where it lands them apart. -/
lemma handoffForMotion_style_iff (l : Layout) (id : ScreenId) (x y : ℕ) (dx dy : Int32)
    (mode : EdgeMode) (style style' : DoubleEdgeStyle) :
    l.handoffForMotion id x y dx dy mode style = l.handoffForMotion id x y dx dy mode style' ↔
      ∀ screen edge target targetScreen, l.screen id = some screen →
        edgeForOverflow ((min x (screen.width - 1) : ℕ) + dx.toInt)
          ((min y (screen.height - 1) : ℕ) + dy.toInt) screen.width screen.height =
            some edge →
        l.crossingTargetFor id edge mode = some target →
        l.screen target = some targetScreen →
          landingFrom style screen targetScreen edge (min x (screen.width - 1))
              (min y (screen.height - 1)) =
            landingFrom style' screen targetScreen edge (min x (screen.width - 1))
              (min y (screen.height - 1)) := by
  rw [Layout.handoffForMotion_eq, Layout.handoffForMotion_eq]
  rcases hs : l.screen id with _ | screen
  · simp
  simp only [Option.bind_some, Option.some.injEq]
  rcases he : edgeForOverflow ((min x (screen.width - 1) : ℕ) + dx.toInt)
    ((min y (screen.height - 1) : ℕ) + dy.toInt) screen.width screen.height with _ | edge
  · refine iff_of_true rfl ?_
    rintro screen' edge target targetScreen rfl he'
    cases he.symm.trans he'
  simp only [Option.bind_some]
  rcases ht : l.crossingTargetFor id edge mode with _ | target
  · refine iff_of_true rfl ?_
    rintro screen' edge' target targetScreen rfl he' ht'
    obtain rfl := Option.some.inj (he.symm.trans he')
    cases ht.symm.trans ht'
  simp only [Option.bind_some]
  rcases hts : l.screen target with _ | targetScreen
  · refine iff_of_true rfl ?_
    rintro screen' edge' target' targetScreen rfl he' ht' hts'
    obtain rfl := Option.some.inj (he.symm.trans he')
    obtain rfl := Option.some.inj (ht.symm.trans ht')
    cases hts.symm.trans hts'
  simp only [Option.map_some, Option.some.injEq, EdgeHandoff.mk.injEq, true_and]
  constructor
  · rintro ⟨hx, hy⟩ screen' edge' target' targetScreen' rfl he' ht' hts'
    obtain rfl := Option.some.inj (he.symm.trans he')
    obtain rfl := Option.some.inj (ht.symm.trans ht')
    obtain rfl := Option.some.inj (hts.symm.trans hts')
    exact Prod.ext hx hy
  · intro h
    have hland := h screen edge target targetScreen rfl he ht hts
    exact ⟨congrArg Prod.fst hland, congrArg Prod.snd hland⟩

/-- **Where the style is inert.** Calls that are each blind to the difference of two styles
reply alike and move the cursors alike under both; and the stateless hop tells two styles
apart exactly where there is a hop and they land it apart. -/
theorem style_inert {r r₁ : EdgeRouter} {style : DoubleEdgeStyle} {ops : List Op}
    {replies : List Reply}
    (hblind : Run.Each step (fun r op => op.Travels ∧ r.StyleBlind style op) r ops)
    (hrun : Run.run step r ops = some (r₁, replies)) (l : Layout) (id : ScreenId) (x y : ℕ)
    (dx dy : Int32) (mode : EdgeMode) (style₁ style₂ : DoubleEdgeStyle) :
    (∃ r₂, Run.run step (r.setDoubleStyle style) ops = some (r₂, replies) ∧
      r₂.cursorPosition = r₁.cursorPosition ∧
      r₂.localCursorPosition = r₁.localCursorPosition) ∧
    (l.handoffForMotion id x y dx dy mode style₁ = l.handoffForMotion id x y dx dy mode style₂ ↔
      ∀ screen edge target targetScreen, l.screen id = some screen →
        edgeForOverflow ((min x (screen.width - 1) : ℕ) + dx.toInt)
          ((min y (screen.height - 1) : ℕ) + dy.toInt) screen.width screen.height =
            some edge →
        l.crossingTargetFor id edge mode = some target →
        l.screen target = some targetScreen →
          landingFrom style₁ screen targetScreen edge (min x (screen.width - 1))
              (min y (screen.height - 1)) =
            landingFrom style₂ screen targetScreen edge (min x (screen.width - 1))
              (min y (screen.height - 1))) := by
  constructor
  · obtain ⟨os, hrun', hview⟩ := Run.run_erase (fun s => setDoubleStyle s style) (fun _ => true)
      some (fun s op s' o hP _ hs => ⟨o, step_setDoubleStyle hP.1 hP.2 hs, rfl⟩)
      (fun _ _ _ _ _ hk => by cases hk) hblind hrun
    rw [List.filterMap_some, List.filterMap_some] at hview
    rw [List.filter_true, hview] at hrun'
    exact ⟨r₁.setDoubleStyle style, hrun', rfl, rfl⟩
  · exact handoffForMotion_style_iff l id x y dx dy mode style₁ style₂

theorem style_inert_twoScreens : ∃ r r₁ r₂ : EdgeRouter, ∃ replies,
    r.Reachable ∧ r.edgeMode = .single ∧ r.doubleStyle = .mirror ∧
      Run.run step r [.route 0 (.mouseMove 40 0), .route 0 (.mouseMove 5 5)] = some (r₁, replies) ∧
      Run.run step (r.setDoubleStyle .fixedLeft)
        [.route 0 (.mouseMove 40 0), .route 0 (.mouseMove 5 5)] = some (r₂, replies) ∧
      r₂.cursorPosition = r₁.cursorPosition := by
  obtain ⟨r, r₁, replies, hr, hm, hst, hblind, hrun⟩ : ∃ r r₁ : EdgeRouter, ∃ replies,
      r.Reachable ∧ r.edgeMode = .single ∧ r.doubleStyle = .mirror ∧
      Run.Each step (fun r op => op.Travels ∧ r.StyleBlind .fixedLeft op) r
        [.route 0 (.mouseMove 40 0), .route 0 (.mouseMove 5 5)] ∧
      Run.run step r [.route 0 (.mouseMove 40 0), .route 0 (.mouseMove 5 5)] =
        some (r₁, replies) := by
    refine ⟨_, _, _, ⟨twoScreens 1 0 1280 800, _,
      [.setEdgeMode .single, .placeLocalCursor 1919 500], _, rfl, rfl⟩, rfl, rfl, ?_, rfl⟩
    refine ⟨⟨trivial, fun _ screen edge target hs he _ _ => ?_, fun hne => absurd rfl hne⟩,
      fun r' reply hs => ⟨⟨trivial, fun hn => ?_, fun _ remote edge hs' he => ?_⟩,
        fun _ _ _ => trivial⟩⟩
    · obtain rfl := Option.some.inj hs
      obtain rfl := Option.some.inj he
      rfl
    · obtain ⟨rfl, -⟩ := Prod.mk.inj (Option.some.inj hs)
      cases hn
    · obtain ⟨rfl, -⟩ := Prod.mk.inj (Option.some.inj hs)
      obtain rfl := Option.some.inj hs'
      cases he
  obtain ⟨r₂, hrun', hpos, -⟩ := (style_inert hblind hrun r.layout r.currentScreen 0 0 0 0
    .single .mirror .mirror).1
  exact ⟨r, r₁, r₂, replies, hr, hm, hst, hrun, hrun', hpos⟩

/-- In single mode a crossing to the right enters a pinned peer through its right edge. -/
theorem style_read_in_single_mode :
    ¬∀ (r r₁ : EdgeRouter) (style : DoubleEdgeStyle) (ops : List Op) (replies : List Reply),
      r.Reachable → r.edgeMode = .single ∨ r.layout.singlePeerScreen = none →
      (∀ op ∈ ops, op.Travels) → Run.run step r ops = some (r₁, replies) →
        ∃ r₂, Run.run step (r.setDoubleStyle style) ops = some (r₂, replies) ∧
          r₂.cursorPosition = r₁.cursorPosition := by
  intro h
  obtain ⟨r₂, hrun, -⟩ := h _ _ .fixedRight [.route 0 (.mouseMove 40 0)] _
    ⟨twoScreens 1 0 1280 800, _, [.setEdgeMode .single, .placeLocalCursor 1919 500], _, rfl, rfl⟩
    (Or.inl rfl) (by simp [Op.Travels]) rfl
  have hreply := (List.cons.inj (Prod.mk.inj (Option.some.inj hrun)).2).1
  exact absurd (Reply.routed.inj hreply) (by decide)

end EdgeRouter

end TheKvm

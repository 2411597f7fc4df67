import TheKvm.Core.Refine

/-!
The stateless hop of a receiver and the stateful crossing of a router are two programs.
They land on the same pixel: a crossing is a hop the gates let through.
-/

namespace TheKvm

/-- The stateless hop, step by step: the edge a clamped cursor overflows, the screen behind
it, and where the crossing lands. -/
lemma Layout.handoffForMotion_eq (l : Layout) (id : ScreenId) (x y : ℕ) (dx dy : Int32)
    (edgeMode : EdgeMode) (style : DoubleEdgeStyle) :
    l.handoffForMotion id x y dx dy edgeMode style =
      (l.screen id).bind fun screen =>
        (edgeForOverflow ((min x (screen.width - 1) : ℕ) + dx.toInt)
          ((min y (screen.height - 1) : ℕ) + dy.toInt) screen.width screen.height).bind fun edge =>
            (l.crossingTargetFor id edge edgeMode).bind fun target =>
              (l.screen target).map fun targetScreen =>
                let p := EdgeRouter.landingFrom style screen targetScreen edge
                  (min x (screen.width - 1)) (min y (screen.height - 1))
                ⟨id, target, edge, p.1, p.2⟩ := by
  unfold Layout.handoffForMotion
  rcases l.screen id with _ | screen
  · rfl
  rw [Option.bind_some]
  generalize hedge : edgeForOverflow _ _ screen.width screen.height = exit
  unfold edgeForOverflow at hedge
  simp only [hedge]
  rcases exit with _ | edge
  · rfl
  simp only [Option.bind_some]
  rcases l.crossingTargetFor id edge edgeMode with _ | target
  · rfl
  simp only [Option.bind_some]
  rcases l.screen target with _ | targetScreen
  · rfl
  · cases edge <;> rfl

namespace EdgeRouter

variable {r r' : EdgeRouter}

/-- From a cursor on its screen the stateless hop reads the router's own edge, target and
landing. -/
lemma handoffForMotion_eq {screen : Screen}
    (hs : r.layout.screen r.currentScreen = some screen)
    (hc : r.cursorX < screen.width ∧ r.cursorY < screen.height) (dx dy : Int32) :
    r.layout.handoffForMotion r.currentScreen r.cursorX r.cursorY dx dy r.edgeMode
        r.doubleStyle =
      (r.exitEdge screen dx dy).bind fun edge =>
        (r.crossingTarget r.currentScreen edge).bind fun target =>
          (r.layout.screen target).map fun targetScreen =>
            ⟨r.currentScreen, target, edge, (r.landing screen targetScreen edge).1,
              (r.landing screen targetScreen edge).2⟩ := by
  have hx : min r.cursorX (screen.width - 1) = r.cursorX := by omega
  have hy : min r.cursorY (screen.height - 1) = r.cursorY := by omega
  rw [Layout.handoffForMotion_eq, hs, Option.bind_some, hx, hy]
  rfl

/-- **Two hops, one landing.** A local router hands off exactly where the stateless hop
would, and where there is no hop it stays local. -/
theorem route_agrees_handoffForMotion (h : r.Reachable) (hn : r.activeRemote = none)
    (now : Instant) (dx dy : Int32) :
    (∀ r' source target edge targetX targetY rest,
      r.route now (.mouseMove dx dy) =
          some (r', .handoff source target edge targetX targetY rest) →
        r.layout.handoffForMotion r.currentScreen r.cursorX r.cursorY dx dy r.edgeMode
          r.doubleStyle = some ⟨source, target, edge, targetX, targetY⟩) ∧
    (r.layout.handoffForMotion r.currentScreen r.cursorX r.cursorY dx dy r.edgeMode
        r.doubleStyle = none →
      ∃ r' event, r.route now (.mouseMove dx dy) = some (r', .localEvent event)) := by
  have hl := h.linked
  obtain ⟨p, hp⟩ := route_isSome hl now (.mouseMove dx dy)
  obtain ⟨screen, hs, hc, hstep⟩ := route_local_step hl hn hp
  rw [hp, handoffForMotion_eq hs hc dx dy]
  cases hstep with
  | inside he => exact ⟨by rintro _ _ _ _ _ _ _ ⟨⟩, fun _ => ⟨_, _, rfl⟩⟩
  | held edge reason he hg => exact ⟨by rintro _ _ _ _ _ _ _ ⟨⟩, fun _ => ⟨_, _, rfl⟩⟩
  | saving edge target he hg hb => exact ⟨by rintro _ _ _ _ _ _ _ ⟨⟩, fun _ => ⟨_, _, rfl⟩⟩
  | crossing edge target targetScreen he hg hb ht =>
    obtain ⟨-, htarget, -⟩ := gate_ok hg
    simp only [he, Option.bind_some, htarget, ht, Option.map_some]
    constructor
    · intro r' source target' edge' targetX targetY rest heq
      obtain ⟨-, heq⟩ := Prod.mk.inj (Option.some.inj heq)
      obtain ⟨rfl, rfl, rfl, rfl, rfl, -⟩ := RoutedEvent.handoff.inj heq
      rfl
    · intro hno
      cases hno

theorem route_agrees_twoScreens : ∃ r r' : EdgeRouter, r.Reachable ∧ r.activeRemote = none ∧
    r.route 0 (.mouseMove 40 0) =
      some (r', .handoff ⟨1⟩ ⟨2⟩ .right 32 370 (.mouseMove 40 0)) ∧
    r.layout.handoffForMotion r.currentScreen r.cursorX r.cursorY 40 0 r.edgeMode
      r.doubleStyle = some ⟨⟨1⟩, ⟨2⟩, .right, 32, 370⟩ := by
  obtain ⟨r, hr, hn, r', hroute⟩ : ∃ r : EdgeRouter, r.Reachable ∧ r.activeRemote = none ∧
      ∃ r', r.route 0 (.mouseMove 40 0) =
        some (r', .handoff ⟨1⟩ ⟨2⟩ .right 32 370 (.mouseMove 40 0)) :=
    ⟨_, ⟨twoScreens 1 0 1280 800, _, [.placeLocalCursor 1919 500], _, rfl, rfl⟩, rfl, _, rfl⟩
  exact ⟨r, r', hr, hn, hroute,
    (route_agrees_handoffForMotion hr hn 0 40 0).1 _ _ _ _ _ _ _ hroute⟩

end EdgeRouter

end TheKvm

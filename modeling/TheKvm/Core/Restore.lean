import TheKvm.Core.Refine

/-!
A crossing that fails, and what a restore makes of it.

The saved column comes back as it was. The row is not read from the saved position: it is
mapped back from the row the crossing landed at, so it survives only where that second
mapping undoes the first.
-/

namespace TheKvm

namespace EdgeRouter

variable {r r' : EdgeRouter}

/-- The row a crossing through `edge` lands at: the row it left mapped to the target, the
inset of a mirrored vertical entry, or a mapped column under a pinned style. -/
def landingRow (r : EdgeRouter) (screen targetScreen : Screen) (edge : Edge) : ℕ :=
  match edge, r.doubleStyle with
  | .left, _ | .right, _ => mapCoordinate r.cursorY screen.height targetScreen.height
  | .top, .mirror => targetScreen.height - 1 - entryInsetPx
  | .bottom, .mirror => min entryInsetPx (targetScreen.height - 1)
  | .top, _ | .bottom, _ => mapCoordinate r.cursorX screen.width targetScreen.width

lemma landing_snd (r : EdgeRouter) (screen targetScreen : Screen) (edge : Edge) :
    (r.landing screen targetScreen edge).2 = r.landingRow screen targetScreen edge := by
  unfold landing landingFrom landingRow
  cases edge <;> cases r.doubleStyle <;> rfl

/-- **When a failed crossing restores the saved position.** A restore right after a handoff
always succeeds and ends the drive; the position it gives is the saved one exactly when the
row of the landing maps back to the row the cursor left. -/
theorem restoreLocal_exact_iff (h : r.Reachable) (hn : r.activeRemote = none) {now : Instant}
    {dx dy : Int32} {source target : ScreenId} {edge : Edge} {targetX targetY : ℕ}
    {rest : InputEvent}
    (hr : r.route now (.mouseMove dx dy) =
      some (r', .handoff source target edge targetX targetY rest)) :
    ∃ screen targetScreen p, r.layout.screen r.localScreen = some screen ∧
      r.layout.screen target = some targetScreen ∧
      r'.localCursorPosition = r.cursorPosition ∧
      (r'.restoreLocal target).2 = .ok p ∧ (r'.restoreLocal target).1.activeRemote = none ∧
      (p = r.cursorPosition ↔
        mapCoordinate (r.landingRow screen targetScreen edge) targetScreen.height screen.height =
          r.cursorY) := by
  have hl := h.linked
  have hc : r.currentScreen = r.localScreen := hl.home_iff.mp hn
  obtain ⟨screen, targetScreen, hs, hin, he, hg, hb, ht, rfl, hland, rfl⟩ :=
    handoff_crossing hl hn hr
  have hw := hl.valid.size hs
  rw [hc] at hs
  have hrow : targetY = r.landingRow screen targetScreen edge := by
    rw [← landing_snd, ← hland]
  have hrestore : ((r.crossed now screen targetScreen target edge).restoreLocal target) =
      ({ (((r.crossed now screen targetScreen target edge).landLocal
          (min r.cursorX (screen.width - 1))
          (min (mapCoordinate (r.landing screen targetScreen edge).2 targetScreen.height
            screen.height) (screen.height - 1))).clearDrive) with
          postReturnEdge := none, postReturnAt := none },
        .ok (min r.cursorX (screen.width - 1),
          min (mapCoordinate (r.landing screen targetScreen edge).2 targetScreen.height
            screen.height) (screen.height - 1))) := by
    unfold restoreLocal
    simp only [crossed, hs, ht, hc, ne_eq, not_true_eq_false, if_false, if_true]
    rfl
  have hlt := mapCoordinate_lt (r.landing screen targetScreen edge).2 targetScreen.height hw.2
  refine ⟨screen, targetScreen, _, hs, ht, ?_, congrArg Prod.snd hrestore, ?_, ?_⟩
  · simp only [localCursorPosition, cursorPosition, crossed, hc, if_true]
  · rw [hrestore]
    rfl
  · rw [← landing_snd]
    simp only [cursorPosition, Prod.mk.injEq]
    omega

theorem restoreLocal_exact_twoScreens : ∃ r r' : EdgeRouter, r.Reachable ∧
    r.route 0 (.mouseMove 40 0) = some (r', .handoff ⟨1⟩ ⟨2⟩ .right 32 500 (.mouseMove 40 0)) ∧
    (r'.restoreLocal ⟨2⟩).2 = .ok r.cursorPosition := by
  obtain ⟨r, r', hr, hn, hroute, hs, ht, hst, hy⟩ : ∃ r r' : EdgeRouter, r.Reachable ∧
      r.activeRemote = none ∧
      r.route 0 (.mouseMove 40 0) =
        some (r', .handoff ⟨1⟩ ⟨2⟩ .right 32 500 (.mouseMove 40 0)) ∧
      r.layout.screen r.localScreen = some ⟨⟨1⟩, "desk", 0, 0, 1920, 1080, none⟩ ∧
      r.layout.screen ⟨2⟩ = some ⟨⟨2⟩, "peer", 1, 0, 1280, 1080, some "peer"⟩ ∧
      r.doubleStyle = .mirror ∧ r.cursorY = 500 :=
    ⟨_, _, ⟨twoScreens 1 0 1280 1080, _, [.placeLocalCursor 1919 500], _, rfl, rfl⟩, rfl, rfl, rfl,
      rfl, rfl, rfl⟩
  obtain ⟨screen, targetScreen, p, hs', ht', -, hp, -, hiff⟩ := restoreLocal_exact_iff hr hn hroute
  obtain rfl := Option.some.inj (hs.symm.trans hs')
  obtain rfl := Option.some.inj (ht.symm.trans ht')
  have hback : p = r.cursorPosition := hiff.mpr (by
    unfold landingRow
    rw [hst, hy]
    show mapCoordinate (mapCoordinate 500 1080 1080) 1080 1080 = 500
    decide)
  exact ⟨r, r', hr, hroute, by rw [hp, hback]⟩

/-- From row 500 of 1080 the way to a screen of 800 rows and back ends in row 499. -/
theorem restoreLocal_moves_row :
    ¬∀ (r r' : EdgeRouter) (now : Instant) (dx dy : Int32) (source target : ScreenId)
      (edge : Edge) (targetX targetY : ℕ) (rest : InputEvent),
      r.Reachable → r.activeRemote = none →
      r.route now (.mouseMove dx dy) =
        some (r', .handoff source target edge targetX targetY rest) →
        (r'.restoreLocal target).2 = .ok r.cursorPosition := by
  intro h
  have hp := h _ _ 0 40 0 _ _ _ _ _ _
    ⟨twoScreens 1 0 1280 800, _, [.placeLocalCursor 1919 500], _, rfl, rfl⟩ rfl rfl
  exact absurd (Except.ok.inj hp) (by decide)

end EdgeRouter

end TheKvm

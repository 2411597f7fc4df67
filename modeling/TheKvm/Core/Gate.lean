import TheKvm.Core.Refine

/-!
The fresh-entry gate.

A seed at a crossing edge arms it, and while it is armed nothing crosses. Motion well
inside lifts it, and so does a new placement; motion along the edge lifts it too, where the
router is locked, because the question it asks is then answered for another reason.
-/

namespace TheKvm

namespace EdgeRouter

variable {r r' : EdgeRouter}

/-- Control is local and the cursor is out of push range of every edge that leads to
another screen. -/
def Away (r : EdgeRouter) : Prop :=
  r.activeRemote = none ∧ ∀ edge, (r.crossingTarget r.currentScreen edge).isSome →
    edgePushPx < r.depth edge

/-- The calls that may open the gate: an explicit placement, or a routed event that leaves
the cursor away from the edges. -/
def Lifts : Op → EdgeRouter → Reply → Prop
  | .placeLocalCursor _ _, _, .done (.ok ()) => True
  | .setLocalCursorPosition _ _, _, .done (.ok ()) => True
  | .route _ _, r', _ => r'.Away
  | _, _, _ => False

/-- The condition under which a call respects the gate: a locked router is not moved along
an edge that leads to another screen. -/
def GateSafe (r : EdgeRouter) : Op → Prop
  | .route _ (.mouseMove dx dy) =>
    r.startupGate = true → r.locked = true → r.activeRemote = none → ∀ screen,
      r.layout.screen r.currentScreen = some screen → r.exitEdge screen dx dy = none →
        ∀ edge, (r.crossingTarget r.currentScreen edge).isSome →
          edgePushPx < distanceFromEdge edge (r.nextX dx).toNat (r.nextY dy).toNat screen.width
            screen.height
  | _ => True

/-- Unlocked and local, a cursor that is near no crossing edge is away from all. -/
lemma depth_of_not_near {screen : Screen} (hs : r.layout.screen r.currentScreen = some screen)
    (hc : r.cursorX < screen.width ∧ r.cursorY < screen.height) (hn : r.activeRemote = none)
    (hcur : r.currentScreen = r.localScreen) (hlock : r.locked = false)
    (h : r.nearCrossingEdge edgePushPx = false) (edge : Edge)
    (ht : (r.crossingTarget r.currentScreen edge).isSome) :
    edgePushPx < distanceFromEdge edge r.cursorX r.cursorY screen.width screen.height := by
  unfold nearCrossingEdge at h
  simp only [hn, hcur, hlock] at h
  rw [hcur] at hs ht
  simp only [hs, Option.isSome_none, Bool.or_self, ne_eq, not_true_eq_false, decide_false,
    Bool.false_eq_true, if_false, List.any_cons, List.any_nil, Bool.or_false,
    Bool.or_eq_false_iff, Bool.and_eq_false_iff, decide_eq_false_iff_not, not_le] at h
  obtain ⟨hleft, hright, htop, hbottom⟩ := h
  cases edge <;> simp only [distanceFromEdge]
  · exact hleft.resolve_right (by simp [ht])
  · have := hright.resolve_right (by simp [ht])
    omega
  · exact htop.resolve_right (by simp [ht])
  · have := hbottom.resolve_right (by simp [ht])
    omega

/-! ### Calls that leave the gate alone -/

lemma setLayout_gate (r : EdgeRouter) (layout : Layout) :
    (r.setLayout layout).1.startupGate = r.startupGate := by
  unfold setLayout
  rcases layout.validate with message | ⟨⟨⟩⟩
  · rfl
  simp only
  split_ifs
  · rfl
  · rfl
  · split <;> rfl

lemma adoptLocalScreenSize_gate (r : EdgeRouter) (width height : ℕ) :
    (r.adoptLocalScreenSize width height).1.startupGate = r.startupGate := by
  unfold adoptLocalScreenSize
  split
  · rfl
  · split <;> rfl

lemma adoptPeerScreenSize_gate (r : EdgeRouter) (fingerprint : String) (width height : ℕ) :
    (r.adoptPeerScreenSize fingerprint width height).1.startupGate = r.startupGate := by
  unfold adoptPeerScreenSize
  split
  · rfl
  split
  · rfl
  split
  · rfl
  · simp only
    split_ifs <;> rfl

lemma resyncIfLocal_gate (r : EdgeRouter) (x y : ℕ) :
    (r.resyncIfLocal x y).startupGate = r.startupGate := by
  rcases r.home_cases with h | ⟨screen, hn, hc, hs⟩
  · rw [resyncIfLocal_refused x y h]
  · rw [resyncIfLocal_eq x y hn hc hs]
    rfl

lemma returnToLocal_gate (r : EdgeRouter) (source : ScreenId) (x y : ℕ) :
    (r.returnToLocal source x y).1.startupGate = r.startupGate := by
  unfold returnToLocal
  split_ifs
  · rfl
  · split <;> rfl

lemma restoreLocal_gate (r : EdgeRouter) (source : ScreenId) :
    (r.restoreLocal source).1.startupGate = r.startupGate := by
  unfold restoreLocal
  split_ifs
  · rfl
  · split <;> rfl

lemma restoreLocalAtEdge_gate (r : EdgeRouter) (now : Instant) (source : ScreenId)
    (edge : Edge) : (r.restoreLocalAtEdge now source edge).1.startupGate = r.startupGate := by
  unfold restoreLocalAtEdge
  split_ifs
  · rfl
  · split <;> rfl

lemma handoffTo_gate (r : EdgeRouter) (now : Instant) (target : ScreenId) (x y : ℕ) :
    (r.handoffTo now target x y).1.startupGate = r.startupGate := by
  unfold handoffTo
  split
  · rfl
  · simp only
    split_ifs <;> rfl

lemma routeDriving_gate (r : EdgeRouter) (now : Instant) (target : ScreenId)
    (event : InputEvent) : (r.routeDriving now target event).1.startupGate = r.startupGate := by
  rcases r.routeDriving_cases now target event with hout | ⟨dx, dy, remote, rfl, hs, hstep⟩
  · rw [hout]
  generalize r.routeDriving now target (.mouseMove dx dy) = p at hstep
  cases hstep with
  | roams h => rw [roam_eq]
  | returns edge h hf hd hr =>
    rw [creditReturn_eq]
    exact restoreLocalAtEdge_gate _ _ _ _
  | builds edge h hf hd hr =>
    rw [creditReturn_eq]
    rfl
  | escapes edge h hf hd hr => exact restoreLocalAtEdge_gate _ _ _ _
  | shoves edge h hf hd hr => rfl
  | clamps edge h hf => rfl

/-- A placement that is refused changes nothing. -/
lemma seedPosition_refused {x y : ℕ} {applyGate : Bool}
    (h : (r.seedPosition x y applyGate).2 ≠ .ok ()) : (r.seedPosition x y applyGate).1 = r := by
  unfold seedPosition at h ⊢
  split_ifs at h ⊢
  · rfl
  · split
    · rfl
    · next hs => simp [hs] at h

/-! ### One call -/

/-- Routing keeps the gate, unless the cursor ends away from the edges. -/
lemma route_gate (hl : r.desk.Linked) (hgate : r.startupGate = true) {now : Instant}
    {event : InputEvent} (hsafe : r.GateSafe (.route now event)) {reply : RoutedEvent}
    (hr : r.route now event = some (r', reply)) : r'.startupGate = true ∨ r'.Away := by
  rcases ha : r.activeRemote with _ | target
  swap
  · rw [route_driving ha] at hr
    have hkept := routeDriving_gate r now target event
    rw [Option.some.inj hr] at hkept
    exact Or.inl (hkept.trans hgate)
  rcases route_local_cases hl ha hr with ⟨-, rfl, -⟩ | ⟨dx, dy, screen, rfl, hs, hc, hstep⟩
  · exact Or.inl hgate
  generalize hq : (r', reply) = q at hstep
  cases hstep with
  | inside he =>
    obtain ⟨rfl, -⟩ := Prod.mk.inj hq
    have hin := exitEdge_none he
    have haway : (∀ edge, (r.crossingTarget r.currentScreen edge).isSome →
        edgePushPx < distanceFromEdge edge (r.nextX dx).toNat (r.nextY dy).toNat screen.width
          screen.height) →
        (r.moveInside screen (r.nextX dx) (r.nextY dy)).Away := by
      intro h
      rw [moveInside_eq]
      refine ⟨ha, fun edge ht => ?_⟩
      have hd := h edge ht
      simp only [depth, moved, hs, Option.map_some, Option.getD_some]
      exact hd
    rcases hnear : (r.moved (r.nextX dx).toNat (r.nextY dy).toNat).nearCrossingEdge edgePushPx with
      _ | _
    · refine Or.inr (haway ?_)
      rcases hlock : r.locked with _ | _
      · -- Unlocked, the router answers from the distances.
        refine fun edge ht => depth_of_not_near (r := r.moved _ _) hs ?_ ha
          (hl.home_iff.mp ha) hlock hnear edge ht
        constructor <;> simp only [moved] <;> omega
      · exact hsafe hgate hlock ha screen hs he
    · left
      rw [moveInside_eq]
      simp only [hgate, hnear, Bool.and_self]
  | held edge reason he hg =>
    obtain ⟨rfl, -⟩ := Prod.mk.inj hq
    exact Or.inl hgate
  | saving edge target he hg hb =>
    obtain ⟨rfl, -⟩ := Prod.mk.inj hq
    rw [creditPush_eq]
    exact Or.inl hgate
  | crossing edge target targetScreen he hg hb ht =>
    obtain ⟨rfl, -⟩ := Prod.mk.inj hq
    exact Or.inl hgate

/-- **One call keeps the gate or may lift it.** -/
lemma step_gate (hl : r.desk.Linked) (hgate : r.startupGate = true) {op : Op}
    (hsafe : r.GateSafe op) {reply : Reply} (hs : r.step op = some (r', reply)) :
    r'.startupGate = true ∨ Lifts op r' reply := by
  cases op with
  | route now event =>
    obtain ⟨p, hp, hpe⟩ := Option.map_eq_some_iff.mp hs
    obtain ⟨rfl, rfl⟩ := Prod.mk.inj hpe
    exact route_gate hl hgate hsafe hp
  | setLocalCursorPosition x y =>
    obtain ⟨rfl, rfl⟩ := Prod.mk.inj (Option.some.inj hs)
    rcases hok : (r.setLocalCursorPosition x y).2 with message | ⟨⟨⟩⟩
    · left
      rw [show (r.setLocalCursorPosition x y).1 = r from
        seedPosition_refused (by rw [show (r.seedPosition x y true).2 = _ from hok]; simp)]
      exact hgate
    · exact Or.inr trivial
  | placeLocalCursor x y =>
    obtain ⟨rfl, rfl⟩ := Prod.mk.inj (Option.some.inj hs)
    rcases hok : (r.placeLocalCursor x y).2 with message | ⟨⟨⟩⟩
    · left
      rw [show (r.placeLocalCursor x y).1 = r from
        seedPosition_refused (by rw [show (r.seedPosition x y false).2 = _ from hok]; simp)]
      exact hgate
    · exact Or.inr trivial
  | setLayout layout =>
    obtain ⟨rfl, -⟩ := Prod.mk.inj (Option.some.inj hs)
    exact Or.inl ((setLayout_gate r layout).trans hgate)
  | resyncIfLocal x y =>
    obtain ⟨rfl, -⟩ := Prod.mk.inj (Option.some.inj hs)
    exact Or.inl ((resyncIfLocal_gate r x y).trans hgate)
  | adoptLocalScreenSize width height =>
    obtain ⟨rfl, -⟩ := Prod.mk.inj (Option.some.inj hs)
    exact Or.inl ((adoptLocalScreenSize_gate r width height).trans hgate)
  | adoptPeerScreenSize fingerprint width height =>
    obtain ⟨rfl, -⟩ := Prod.mk.inj (Option.some.inj hs)
    exact Or.inl ((adoptPeerScreenSize_gate r fingerprint width height).trans hgate)
  | returnToLocal source x y =>
    obtain ⟨rfl, -⟩ := Prod.mk.inj (Option.some.inj hs)
    exact Or.inl ((returnToLocal_gate r source x y).trans hgate)
  | restoreLocal source =>
    obtain ⟨rfl, -⟩ := Prod.mk.inj (Option.some.inj hs)
    exact Or.inl ((restoreLocal_gate r source).trans hgate)
  | restoreLocalAtEdge now source edge =>
    obtain ⟨rfl, -⟩ := Prod.mk.inj (Option.some.inj hs)
    exact Or.inl ((restoreLocalAtEdge_gate r now source edge).trans hgate)
  | handoffTo now target x y =>
    obtain ⟨rfl, -⟩ := Prod.mk.inj (Option.some.inj hs)
    exact Or.inl ((handoffTo_gate r now target x y).trans hgate)
  | _ =>
    obtain ⟨rfl, -⟩ := Prod.mk.inj (Option.some.inj hs)
    exact Or.inl hgate

/-- While the gate is armed nothing crosses. -/
lemma route_ne_handoff (hl : r.desk.Linked) (hgate : r.startupGate = true) {now : Instant}
    {event : InputEvent} {source target : ScreenId} {edge : Edge} {targetX targetY : ℕ}
    {rest : InputEvent} :
    r.route now event ≠ some (r', .handoff source target edge targetX targetY rest) := by
  intro hr
  rcases ha : r.activeRemote with _ | remote
  · rcases route_local_reply hl ha hr with ⟨-, event', he⟩ |
      ⟨dx, dy, source', target', edge', targetX', targetY', rest', rfl, he⟩
    · cases he
    · obtain ⟨screen, targetScreen, -, -, -, hg, -⟩ := handoff_crossing hl ha hr
      obtain ⟨-, -, hopen, -⟩ := gate_ok hg
      rw [hgate] at hopen
      cases hopen
  · rw [route_driving ha] at hr
    exact routeDriving_ne_handoff now remote event _ _ _ _ _ _
      (congrArg Prod.snd (Option.some.inj hr))

/-- **The fresh-entry gate.** From a seed that armed it, through calls that respect it, no
routed event hands off unless an earlier call placed the cursor anew or left it away from
every crossing edge. -/
theorem gate_holds {x y : ℕ} (hr : r.Reachable)
    (hseed : r.setLocalCursorPosition x y = (r', .ok ())) (harmed : r'.startupGate = true)
    {ops : List Op} (hsafe : Run.Each step GateSafe r' ops) {r₁ r₂ : EdgeRouter}
    {replies : List Reply} (hrun : Run.run step r' ops = some (r₁, replies)) {now : Instant}
    {event : InputEvent} {source target : ScreenId} {edge : Edge} {targetX targetY : ℕ}
    {rest : InputEvent}
    (hcross : r₁.route now event =
      some (r₂, .handoff source target edge targetX targetY rest)) :
    ∃ before op after s os s' reply, ops = before ++ op :: after ∧
      Run.run step r' before = some (s, os) ∧ s.step op = some (s', reply) ∧
      Lifts op s' reply := by
  have hr' : r'.Reachable := by
    have hs : r.step (.setLocalCursorPosition x y) = some (r', .done (.ok ())) := by
      simp only [step, hseed]
    exact hr.step hs
  have hstep : ∀ (s : EdgeRouter) op s' reply, s.desk.Linked ∧ s.startupGate = true →
      s.GateSafe op → s.step op = some (s', reply) →
        (s'.desk.Linked ∧ s'.startupGate = true) ∨ Lifts op s' reply := by
    rintro s op s' reply ⟨hl, hgate⟩ hsafe hs
    rcases step_gate hl hgate hsafe hs with hkept | hlift
    · exact Or.inl ⟨step_linked hl hs, hkept⟩
    · exact Or.inr hlift
  rcases Run.run_until hstep ⟨hr'.linked, harmed⟩ hsafe hrun with ⟨hl, hgate⟩ | hlift
  · exact absurd hcross (route_ne_handoff hl hgate)
  · exact hlift

theorem gate_holds_twoScreens : ∃ r r' r₁ r₂ : EdgeRouter, ∃ replies,
    r.Reachable ∧ r.setLocalCursorPosition 1919 500 = (r', .ok ()) ∧ r'.startupGate = true ∧
      Run.run step r' [.route 0 (.mouseMove (-50) 0)] = some (r₁, replies) ∧
      r₁.route 0 (.mouseMove 100 0) =
        some (r₂, .handoff ⟨1⟩ ⟨2⟩ .right 32 370 (.mouseMove 50 0)) ∧
      r₁.Away := by
  obtain ⟨r, r', r₁, r₂, replies, hr, hseed, harmed, hsafe, hrun, hcross⟩ :
      ∃ r r' r₁ r₂ : EdgeRouter, ∃ replies,
        r.Reachable ∧ r.setLocalCursorPosition 1919 500 = (r', .ok ()) ∧
        r'.startupGate = true ∧
        Run.Each step GateSafe r' [.route 0 (.mouseMove (-50) 0)] ∧
        Run.run step r' [.route 0 (.mouseMove (-50) 0)] = some (r₁, replies) ∧
        r₁.route 0 (.mouseMove 100 0) =
          some (r₂, .handoff ⟨1⟩ ⟨2⟩ .right 32 370 (.mouseMove 50 0)) := by
    refine ⟨_, _, _, _, _, ⟨twoScreens 1 0 1280 800, _, [], _, rfl, rfl⟩, rfl, rfl, ?_, rfl, rfl⟩
    exact ⟨fun _ hlock => (by cases hlock), fun _ _ _ => trivial⟩
  obtain ⟨before, op, after, s, os, s', reply, hops, hbefore, hs, hlift⟩ :=
    gate_holds hr hseed harmed hsafe hrun hcross
  -- The one call there is must be the one that lifted the gate.
  obtain ⟨rfl, rfl, rfl⟩ : before = [] ∧ op = .route 0 (.mouseMove (-50) 0) ∧ after = [] := by
    cases before <;> simp_all
  obtain ⟨rfl, -⟩ := Prod.mk.inj (Option.some.inj hbefore)
  obtain ⟨t, o, os', hs', hnil, -⟩ := Run.run_cons_some.mp hrun
  obtain ⟨rfl, -⟩ := Prod.mk.inj (Option.some.inj (hs.symm.trans hs'))
  obtain ⟨rfl, -⟩ := Prod.mk.inj (Option.some.inj hnil)
  exact ⟨r, r', _, r₂, replies, hr, hseed, harmed, hrun, hcross, hlift⟩

/-- Locked, motion along the edge lifts the gate, and the next push after the unlock crosses. -/
theorem lock_lifts_gate :
    ¬∀ (r r' r₁ r₂ : EdgeRouter) (x y : ℕ) (ops : List Op) (replies : List Reply)
      (now : Instant) (event : InputEvent) (source target : ScreenId) (edge : Edge)
      (targetX targetY : ℕ) (rest : InputEvent), r.Reachable →
      r.setLocalCursorPosition x y = (r', .ok ()) → r'.startupGate = true →
      Run.run step r' ops = some (r₁, replies) →
      r₁.route now event = some (r₂, .handoff source target edge targetX targetY rest) →
        ∃ before op after s os s' reply, ops = before ++ op :: after ∧
          Run.run step r' before = some (s, os) ∧ s.step op = some (s', reply) ∧
          Lifts op s' reply := by
  intro h
  obtain ⟨before, op, after, s, os, s', reply, hops, hbefore, hs, hlift⟩ :=
    h _ _ _ _ 1919 500 [.setLocked true, .route 0 (.mouseMove 0 5), .setLocked false] _ 0
      (.mouseMove 40 0) _ _ _ _ _ _ ⟨twoScreens 1 0 1280 800, _, [], _, rfl, rfl⟩ rfl rfl rfl rfl
  rcases before with _ | ⟨a, _ | ⟨b, before⟩⟩
  · obtain ⟨rfl, -⟩ := List.cons.inj hops
    exact hlift
  · obtain ⟨ha, hops⟩ := List.cons.inj hops
    obtain ⟨rfl, -⟩ := List.cons.inj hops
    rw [← ha] at hbefore
    obtain ⟨rfl, -⟩ := Prod.mk.inj (Option.some.inj hbefore)
    obtain ⟨rfl, -⟩ := Prod.mk.inj (Option.some.inj hs)
    exact absurd (hlift.2 .right rfl) (by decide)
  · obtain ⟨-, hops⟩ := List.cons.inj hops
    obtain ⟨-, hops⟩ := List.cons.inj hops
    rcases before with _ | ⟨c, before⟩
    · obtain ⟨rfl, -⟩ := List.cons.inj hops
      exact hlift
    · simp at hops

end EdgeRouter

end TheKvm

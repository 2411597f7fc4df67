import TheKvm.Core.Hop
import TheKvm.Core.Return
import TheKvm.Daemon.RemoteInput
import TheKvm.Lib.Trace

/-!
The push-through run of a receiver beside that of a router, on the same motions.

Both ask for 8 px past one edge. The router credits less from far inside, and keeps its run while
the cursor stays at the border.
-/

namespace TheKvm

open EdgeRouter

/-! ### What a motion does to the receiver -/

/-- Whether the block asks to hand off, whatever the visible pointer shows then. -/
def HopOutcome.hops : HopOutcome → Bool
  | .drive => false
  | _ => true

/-- Whether an event is a handoff. -/
def RoutedEvent.hops : RoutedEvent → Bool
  | .handoff .. => true
  | _ => false

/-- The run on one edge. -/
def RemoteTracker.run (t : RemoteTracker) (edge : Edge) : ℤ :=
  if t.hopEdge = some edge then t.hopAccum else 0

def EdgeRouter.run (r : EdgeRouter) (edge : Edge) : ℤ :=
  if r.pushEdge = some edge then r.pushAccum else 0

/-! ### Both side by side -/

structure HopMotion where
  now : Instant
  os : OsTruth
  dx : Int32
  dy : Int32

/-- A receiver and a router. -/
structure HopPair where
  tracker : RemoteTracker
  router : EdgeRouter
  /-- One of them has handed off. -/
  ended : Bool

namespace HopPair

def step (config : ReceiverConfig) (geometry : Option ScreenGeometry) (s : HopPair)
    (m : HopMotion) : HopPair × Unit :=
  let (tracker, outcome) := s.tracker.move config m.os geometry m.dx m.dy
  match s.router.route m.now (.mouseMove m.dx m.dy) with
  | none => (⟨tracker, s.router, true⟩, ())
  | some (router, event) => (⟨tracker, router, s.ended || outcome.hops || event.hops⟩, ())

/-- The tracked cursors are one, and both hand off or neither. -/
def Alike (config : ReceiverConfig) (geometry : Option ScreenGeometry) (s : HopPair)
    (m : HopMotion) : Prop :=
  s.ended = false → s.tracker.remoteCursor = some s.router.cursorPosition ∧
    ∃ router event, s.router.route m.now (.mouseMove m.dx m.dy) = some (router, event) ∧
      ((s.tracker.move config m.os geometry m.dx m.dy).2.hops = true ↔ event.hops = true)

/-- A motion past an edge with a screen behind starts near the edge or goes less than 8 px past
it; and what the router alone remembers of the push does not tip the balance. -/
def Paced (s : HopPair) (m : HopMotion) : Prop :=
  s.ended = false → ∀ screen edge, s.router.layout.screen s.router.currentScreen = some screen →
    s.router.exitEdge screen m.dx m.dy = some edge →
    (s.router.crossingTarget s.router.currentScreen edge).isSome = true →
    let overflow := s.router.overflow screen edge m.dx m.dy
    (distanceFromEdge edge s.router.cursorX s.router.cursorY screen.width screen.height ≤
        phantomStartGuardPx ∨ overflow < edgePushPx) ∧
      (edgePushPx ≤ s.tracker.run edge + overflow ∨ s.router.run edge + overflow < edgePushPx)

/-- The cursor after a motion, kept on its screen. -/
def pinned (s : HopPair) (screen : Screen) (m : HopMotion) : ℕ × ℕ :=
  ((min (max (s.router.nextX m.dx) 0) (screen.width - 1)).toNat,
    (min (max (s.router.nextY m.dy) 0) (screen.height - 1)).toNat)

/-- What the two share until one hands off. -/
structure Level (config : ReceiverConfig) (s : HopPair) : Prop where
  linked : s.router.desk.Linked
  home : s.router.activeRemote = none
  ungated : s.router.locked = false ∧ s.router.startupGate = false ∧ s.router.postReturnEdge = none
  settings : config.layout = s.router.layout ∧ config.edgeMode = s.router.edgeMode ∧
    config.doubleEdgeStyle = s.router.doubleStyle
  screen : s.tracker.remoteScreen = some s.router.currentScreen
  cursor : s.tracker.remoteCursor = some s.router.cursorPosition
  near : ∀ screen edge, s.router.layout.screen s.router.currentScreen = some screen →
    s.router.pushEdge = some edge →
    distanceFromEdge edge s.router.cursorX s.router.cursorY screen.width screen.height ≤ 2
  pushed : 0 ≤ s.router.pushAccum ∧ s.router.pushAccum < edgePushPx
  hopped : 0 ≤ s.tracker.hopAccum ∧ s.tracker.hopAccum < edgePushPx
  /-- The router forgets no push that the receiver remembers. -/
  behind : ∀ edge, (s.router.crossingTarget s.router.currentScreen edge).isSome = true →
    s.tracker.hopEdge = some edge →
    s.router.pushEdge = some edge ∧ s.tracker.hopAccum ≤ s.router.pushAccum

end HopPair

/-! ### One motion -/

lemma edgePushPx_pos : 0 < edgePushPx := by decide

section

variable {r : EdgeRouter} {screen : Screen} {dx dy : Int32}

/-- Both read the same overflow. -/
lemma edgeOverflow_eq (hsize : 0 < screen.width ∧ 0 < screen.height) :
    edgeOverflow screen.width screen.height r.cursorX r.cursorY dx dy =
      (r.exitEdge screen dx dy).map fun edge => (edge, r.overflow screen edge dx dy) := by
  have hwidth : ((screen.width - 1 : ℕ) : ℤ) = screen.width - 1 := by omega
  have hheight : ((screen.height - 1 : ℕ) : ℤ) = screen.height - 1 := by omega
  rw [edgeOverflow, exitEdge, edgeForOverflow, nextX, nextY, hwidth, hheight]
  split_ifs <;> rfl

lemma overflow_bounds (hc : r.cursorX < screen.width ∧ r.cursorY < screen.height) {edge : Edge}
    (h : r.exitEdge screen dx dy = some edge) :
    0 < r.overflow screen edge dx dy ∧ r.overflow screen edge dx dy ≤ 2 ^ 31 := by
  have hdx := dx.toInt_lt
  have hdx' := dx.le_toInt
  have hdy := dy.toInt_lt
  have hdy' := dy.le_toInt
  rw [exitEdge, edgeForOverflow] at h
  rw [overflow]
  split_ifs at h <;> obtain rfl := Option.some.inj h <;>
    simp only [overflowPast, nextX, nextY] at * <;> omega

/-- An overflowed edge is where the pinned cursor ends. -/
lemma distance_clamped (hsize : 0 < screen.width ∧ 0 < screen.height) {edge : Edge}
    (h : r.exitEdge screen dx dy = some edge) :
    distanceFromEdge edge (min (max (r.nextX dx) 0) (screen.width - 1)).toNat
      (min (max (r.nextY dy) 0) (screen.height - 1)).toNat screen.width screen.height = 0 := by
  rw [exitEdge, edgeForOverflow] at h
  split_ifs at h <;> obtain rfl := Option.some.inj h <;> simp only [distanceFromEdge] <;> omega

variable {t : RemoteTracker} {config : ReceiverConfig} {edge : Edge}

lemma requestHop_inside (hs : config.layout.screen r.currentScreen = some screen)
    (hsize : 0 < screen.width ∧ 0 < screen.height) (h : r.exitEdge screen dx dy = none) :
    t.requestHop config r.currentScreen r.cursorX r.cursorY dx dy = (t.clearHop, none) := by
  rw [RemoteTracker.requestHop, RemoteTracker.pressHop, hs]
  simp only [edgeOverflow_eq hsize, h, Option.map_none]
  rfl

/-- Past an edge the run grows, and asks for the next hop once it is long enough. -/
lemma requestHop_exit (hs : config.layout.screen r.currentScreen = some screen)
    (hc : r.cursorX < screen.width ∧ r.cursorY < screen.height)
    (hrun : 0 ≤ t.hopAccum ∧ t.hopAccum < edgePushPx) (h : r.exitEdge screen dx dy = some edge) :
    t.requestHop config r.currentScreen r.cursorX r.cursorY dx dy =
      if edgePushPx ≤ t.run edge + r.overflow screen edge dx dy then
        (t.clearHop, config.layout.handoffForMotion r.currentScreen r.cursorX r.cursorY dx dy
          config.edgeMode config.doubleEdgeStyle)
      else
        ({ t with hopEdge := some edge, hopAccum := t.run edge + r.overflow screen edge dx dy },
          none) := by
  have hbounds := overflow_bounds hc h
  have hcredit : t.creditHop edge (r.overflow screen edge dx dy) =
      { t with
        hopEdge := some edge, hopAccum := t.run edge + r.overflow screen edge dx dy } := by
    rw [RemoteTracker.creditHop, RemoteTracker.run]
    split_ifs with hedge
    · rw [wrapI64_eq (by simp only [edgePushPx] at hrun; omega), hedge]
    · rw [zero_add]
  rw [RemoteTracker.requestHop, RemoteTracker.pressHop, hs]
  have hsize : 0 < screen.width ∧ 0 < screen.height := by omega
  simp only [edgeOverflow_eq hsize, h, Option.map_some, hcredit, decide_eq_true_eq]
  rfl

/-- A push of a router as it is saved: all of it from near the edge, less than a crossing from
farther inside, where no run is left. -/
lemma savedPush_eq (hpushed : 0 ≤ r.pushAccum ∧ r.pushAccum < edgePushPx)
    (hnear : r.pushEdge = some edge →
      distanceFromEdge edge r.cursorX r.cursorY screen.width screen.height ≤ 2)
    (hbounds : 0 < r.overflow screen edge dx dy ∧ r.overflow screen edge dx dy ≤ 2 ^ 31) :
    r.savedPush screen edge (r.overflow screen edge dx dy) =
      if distanceFromEdge edge r.cursorX r.cursorY screen.width screen.height ≤
          phantomStartGuardPx then r.run edge + r.overflow screen edge dx dy
      else min (r.overflow screen edge dx dy) (edgePushPx - 1) := by
  simp only [edgePushPx] at hpushed
  rw [savedPush, pushCredit, EdgeRouter.run]
  by_cases hedge : r.pushEdge = some edge
  · have hguard : distanceFromEdge edge r.cursorX r.cursorY screen.width screen.height ≤
        phantomStartGuardPx := (hnear hedge).trans (by decide)
    rw [if_pos hedge, if_pos hguard, if_pos hguard, if_pos hedge, wrapI64_eq (by omega)]
  · rw [if_neg hedge, if_neg hedge, zero_add]

end

/-- The hop itself needs no more than a screen behind the edge. -/
lemma handoff_isSome {r : EdgeRouter} {screen : Screen} {dx dy : Int32} {edge : Edge}
    (hv : r.layout.Valid) (hs : r.layout.screen r.currentScreen = some screen)
    (hc : r.cursorX < screen.width ∧ r.cursorY < screen.height)
    (h : r.exitEdge screen dx dy = some edge) :
    (r.layout.handoffForMotion r.currentScreen r.cursorX r.cursorY dx dy r.edgeMode
        r.doubleStyle).isSome = (r.crossingTarget r.currentScreen edge).isSome := by
  rw [handoffForMotion_eq hs hc, h, Option.bind_some]
  rcases htarget : r.crossingTarget r.currentScreen edge with _ | target
  · rfl
  obtain ⟨targetScreen, hscreen⟩ :=
    Layout.screen_isSome.mpr (Layout.crossingTargetFor_mem hv htarget).1
  rw [Option.bind_some, hscreen]
  rfl

namespace RemoteTracker

variable {config : ReceiverConfig} {geometry : Option ScreenGeometry} {os : OsTruth}
  {t : RemoteTracker} {screenId : ScreenId} {x y : ℕ} {dx dy : Int32}

/-- The block hands off, or is vetoed, exactly when it asks for the next hop. -/
lemma move_hops (hscreen : t.remoteScreen = some screenId)
    (hcursor : t.remoteCursor = some (x, y)) :
    (t.move config os geometry dx dy).2.hops =
      (t.requestHop config screenId x y dx dy).2.isSome := by
  rw [move, hscreen, hcursor]
  simp only
  rcases hhop : t.requestHop config screenId x y dx dy with ⟨t', _ | handoff⟩
  · rfl
  · rcases config.layout.screen screenId with _ | screen
    · rfl
    simp only
    rcases receiverEdgeTruthVeto config os screenId handoff.edge with _ | truth
    · simp only
      rcases handoffRequest config geometry screen x y dx dy handoff with error | message
      · rfl
      · rfl
    · rfl

lemma move_drive (hscreen : t.remoteScreen = some screenId) (hcursor : t.remoteCursor = some (x, y))
    (h : (t.requestHop config screenId x y dx dy).2 = none) :
    t.move config os geometry dx dy =
      ((t.requestHop config screenId x y dx dy).1.pinCursor config screenId x y dx dy, .drive) := by
  rw [move, hscreen, hcursor]
  rcases hhop : t.requestHop config screenId x y dx dy with ⟨t', _ | handoff⟩
  · simp only [hhop]
  · rw [hhop] at h
    cases h

end RemoteTracker

namespace HopPair

variable {config : ReceiverConfig} {geometry : Option ScreenGeometry} {s : HopPair} {m : HopMotion}

namespace Level

/-- The receiver hands off when a run past an edge with a screen behind is long enough. -/
lemma move_hops_iff (h : s.Level config) (geometry : Option ScreenGeometry) (m : HopMotion)
    {screen : Screen}
    (hs : s.router.layout.screen s.router.currentScreen = some screen)
    (hc : s.router.cursorX < screen.width ∧ s.router.cursorY < screen.height) :
    (s.tracker.move config m.os geometry m.dx m.dy).2.hops = true ↔
      ∃ edge, s.router.exitEdge screen m.dx m.dy = some edge ∧
        (s.router.crossingTarget s.router.currentScreen edge).isSome = true ∧
        edgePushPx ≤ s.tracker.run edge + s.router.overflow screen edge m.dx m.dy := by
  obtain ⟨hlayout, hmode, hstyle⟩ := h.settings
  have hs' : config.layout.screen s.router.currentScreen = some screen := by rw [hlayout, hs]
  rw [RemoteTracker.move_hops h.screen h.cursor]
  rcases hexit : s.router.exitEdge screen m.dx m.dy with _ | edge
  · rw [requestHop_inside hs' ⟨by omega, by omega⟩ hexit]
    simp
  · rw [requestHop_exit hs' hc h.hopped hexit, hlayout, hmode, hstyle]
    have hsome := handoff_isSome h.linked.valid hs hc hexit
    simp only [Option.some.injEq, exists_eq_left']
    split_ifs with hrun
    · rw [hsome]
      exact (and_iff_left hrun).symm
    · exact iff_of_false (by simp) fun hand => hrun hand.2

/-- The router hands off when what it saved of a push past such an edge is enough. -/
lemma route_hops_iff (h : s.Level config) {screen : Screen}
    (hs : s.router.layout.screen s.router.currentScreen = some screen)
    {router : EdgeRouter} {event : RoutedEvent}
    (hroute : s.router.route m.now (.mouseMove m.dx m.dy) = some (router, event)) :
    event.hops = true ↔
      ∃ edge, s.router.exitEdge screen m.dx m.dy = some edge ∧
        (s.router.crossingTarget s.router.currentScreen edge).isSome = true ∧
        edgePushPx ≤
          s.router.savedPush screen edge (s.router.overflow screen edge m.dx m.dy) := by
  obtain ⟨screen', hs', hc, hstep⟩ := route_local_step h.linked h.home hroute
  obtain rfl : screen' = screen := Option.some.inj (hs'.symm.trans hs)
  generalize hpair : (router, event) = pair at hstep
  cases hstep with
  | inside hexit =>
    obtain ⟨-, rfl⟩ := Prod.mk.inj hpair
    simp [hexit, RoutedEvent.hops]
  | held edge reason hexit hgate =>
    obtain ⟨-, rfl⟩ := Prod.mk.inj hpair
    simp only [hexit, Option.some.injEq, exists_eq_left']
    refine iff_of_false (by simp [RoutedEvent.hops]) ?_
    rintro ⟨hsome, -⟩
    obtain ⟨target, htarget⟩ := Option.isSome_iff_exists.mp hsome
    obtain ⟨hlocked, hstartup, hpost⟩ := h.ungated
    simp [gate, hlocked, hstartup, hpost, htarget] at hgate
  | saving edge target hexit hgate hsaved =>
    obtain ⟨-, rfl⟩ := Prod.mk.inj hpair
    simp only [hexit, Option.some.injEq, exists_eq_left']
    exact iff_of_false (by simp [RoutedEvent.hops]) fun hand => absurd hand.2 (by omega)
  | crossing edge target targetScreen hexit hgate hsaved htarget =>
    obtain ⟨-, rfl⟩ := Prod.mk.inj hpair
    simp only [hexit, Option.some.injEq, exists_eq_left']
    refine iff_of_true rfl ⟨?_, hsaved⟩
    rw [(gate_ok hgate).2.1]
    rfl

lemma run_le (h : s.Level config) {edge : Edge}
    (hsome : (s.router.crossingTarget s.router.currentScreen edge).isSome = true) :
    s.tracker.run edge ≤ s.router.run edge := by
  rw [RemoteTracker.run, EdgeRouter.run]
  split_ifs with hhop hpush hpush
  · exact (h.behind edge hsome hhop).2
  · exact absurd (h.behind edge hsome hhop).1 hpush
  · exact h.pushed.1
  · exact le_rfl

/-- The two are alike if both hand off or neither. -/
lemma alike_of_hops (h : s.Level config) (hended : s.ended = false) {router : EdgeRouter}
    {event : RoutedEvent}
    (hroute : s.router.route m.now (.mouseMove m.dx m.dy) = some (router, event)) :
    s.Alike config geometry m ↔
      ((s.tracker.move config m.os geometry m.dx m.dy).2.hops = true ↔ event.hops = true) := by
  constructor
  · intro halike
    obtain ⟨-, _, _, hroute', hiff⟩ := halike hended
    obtain ⟨rfl, rfl⟩ := Prod.mk.inj (Option.some.inj (hroute'.symm.trans hroute))
    exact hiff
  · intro hiff _
    exact ⟨h.cursor, router, event, hroute, hiff⟩

/-- Both hand off past the edge, or neither, if the motion is paced there. -/
lemma balance_iff (h : s.Level config) {screen : Screen} {edge : Edge}
    (hs : s.router.layout.screen s.router.currentScreen = some screen)
    (hc : s.router.cursorX < screen.width ∧ s.router.cursorY < screen.height)
    (hexit : s.router.exitEdge screen m.dx m.dy = some edge)
    (hsome : (s.router.crossingTarget s.router.currentScreen edge).isSome = true) :
    let overflow := s.router.overflow screen edge m.dx m.dy
    (edgePushPx ≤ s.tracker.run edge + overflow ↔
        edgePushPx ≤ s.router.savedPush screen edge overflow) ↔
      (distanceFromEdge edge s.router.cursorX s.router.cursorY screen.width screen.height ≤
          phantomStartGuardPx ∨ overflow < edgePushPx) ∧
        (edgePushPx ≤ s.tracker.run edge + overflow ∨
          s.router.run edge + overflow < edgePushPx) := by
  have hle := h.run_le hsome
  have hbounds := overflow_bounds hc hexit
  simp only
  rw [savedPush_eq h.pushed (h.near screen edge hs) hbounds]
  by_cases hnear : distanceFromEdge edge s.router.cursorX s.router.cursorY screen.width
      screen.height ≤ phantomStartGuardPx
  · rw [if_pos hnear]
    simp only [hnear, true_or, true_and]
    omega
  · have hpush : s.router.pushEdge ≠ some edge := fun heq =>
      hnear ((h.near screen edge hs heq).trans (by decide))
    have hrouter : s.router.run edge = 0 := if_neg hpush
    have htracker : s.tracker.run edge = 0 := if_neg fun heq => hpush (h.behind edge hsome heq).1
    rw [if_neg hnear, hrouter, htracker]
    simp only [hnear, false_or, edgePushPx]
    omega

/-- A level pair is alike at a motion exactly if the motion is paced. -/
lemma alike_iff (h : s.Level config) : s.Alike config geometry m ↔ s.Paced m := by
  by_cases hended : s.ended = false
  swap
  · exact iff_of_true (fun hfalse => absurd hfalse hended) fun hfalse => absurd hfalse hended
  obtain ⟨⟨router, event⟩, hroute⟩ := route_isSome h.linked m.now (.mouseMove m.dx m.dy)
  obtain ⟨screen, hs, hc⟩ := h.linked.inside h.home
  have hs : s.router.layout.screen s.router.currentScreen = some screen := hs
  rw [h.alike_of_hops hended hroute, h.move_hops_iff geometry m hs hc, h.route_hops_iff hs hroute]
  by_cases hcross : ∃ edge, s.router.exitEdge screen m.dx m.dy = some edge ∧
      (s.router.crossingTarget s.router.currentScreen edge).isSome = true
  · obtain ⟨edge, hexit, hsome⟩ := hcross
    simp only [hexit, Option.some.injEq, exists_eq_left', hsome, true_and]
    refine (h.balance_iff hs hc hexit hsome).trans ⟨?_, ?_⟩
    · intro hone _ screen' edge' hs' hexit' _
      obtain rfl : screen' = screen := Option.some.inj (hs'.symm.trans hs)
      obtain rfl : edge' = edge := Option.some.inj (hexit'.symm.trans hexit)
      exact hone
    · intro hpaced
      exact hpaced hended screen edge hs hexit hsome
  · refine iff_of_true (iff_of_false ?_ ?_) ?_
    · rintro ⟨edge, hexit, hsome, -⟩
      exact hcross ⟨edge, hexit, hsome⟩
    · rintro ⟨edge, hexit, hsome, -⟩
      exact hcross ⟨edge, hexit, hsome⟩
    · intro _ screen' edge hs' hexit hsome
      obtain rfl : screen' = screen := Option.some.inj (hs'.symm.trans hs)
      exact absurd ⟨edge, hexit, hsome⟩ hcross

/-- The receiver after a motion that does not hand off: its cursor is pinned to the screen, and a
run that it keeps is that of the edge the motion went past. -/
lemma move_level (h : s.Level config) {screen : Screen}
    (hs : s.router.layout.screen s.router.currentScreen = some screen)
    (hc : s.router.cursorX < screen.width ∧ s.router.cursorY < screen.height)
    (hhops : (s.tracker.move config m.os geometry m.dx m.dy).2.hops = false) :
    ∃ hopEdge hopAccum, (s.tracker.move config m.os geometry m.dx m.dy).1 =
        ⟨s.tracker.remoteScreen, some (s.pinned screen m), hopEdge, hopAccum⟩ ∧
      (0 ≤ hopAccum ∧ hopAccum < edgePushPx) ∧
      ∀ edge, hopEdge = some edge → s.router.exitEdge screen m.dx m.dy = some edge ∧
        hopAccum = s.tracker.run edge + s.router.overflow screen edge m.dx m.dy := by
  obtain ⟨hlayout, -, -⟩ := h.settings
  have hs' : config.layout.screen s.router.currentScreen = some screen := by rw [hlayout, hs]
  have hnone : (s.tracker.requestHop config s.router.currentScreen s.router.cursorX
      s.router.cursorY m.dx m.dy).2 = none := by
    rw [RemoteTracker.move_hops h.screen h.cursor] at hhops
    exact Option.isNone_iff_eq_none.mp (by simpa using hhops)
  have hwidth : ((screen.width - 1 : ℕ) : ℤ) = screen.width - 1 := by omega
  have hheight : ((screen.height - 1 : ℕ) : ℤ) = screen.height - 1 := by omega
  have hpin (t : RemoteTracker) : t.pinCursor config s.router.currentScreen s.router.cursorX
      s.router.cursorY m.dx m.dy = { t with remoteCursor := some (s.pinned screen m) } := by
    rw [RemoteTracker.pinCursor, hs']
    simp only [hwidth, hheight]
    rfl
  rw [RemoteTracker.move_drive h.screen h.cursor hnone, hpin]
  rcases hexit : s.router.exitEdge screen m.dx m.dy with _ | edge
  · rw [requestHop_inside hs' ⟨by omega, by omega⟩ hexit]
    exact ⟨none, 0, rfl, by decide, fun _ hedge => nomatch hedge⟩
  · have hbounds := overflow_bounds hc hexit
    have hrun : 0 ≤ s.tracker.run edge := by
      rw [RemoteTracker.run]
      split_ifs
      · exact h.hopped.1
      · exact le_rfl
    rw [requestHop_exit hs' hc h.hopped hexit]
    split_ifs with hready
    · exact ⟨none, 0, rfl, by decide, fun _ hedge => nomatch hedge⟩
    · refine ⟨some edge, s.tracker.run edge + s.router.overflow screen edge m.dx m.dy, rfl,
        ⟨by omega, by omega⟩, fun edge' hedge => ?_⟩
      obtain rfl := Option.some.inj hedge
      exact ⟨rfl, rfl⟩

section

variable {screen : Screen} {edge : Edge} {hopEdge : Option Edge} {hopAccum : ℤ}

/-- Inside, both cursors move and the router keeps its run near the border. -/
lemma inside (h : s.Level config)
    (hs : s.router.layout.screen s.router.currentScreen = some screen)
    (hexit : s.router.exitEdge screen m.dx m.dy = none)
    (hhopped : 0 ≤ hopAccum ∧ hopAccum < edgePushPx)
    (hlinked : (s.router.moveInside screen (s.router.nextX m.dx)
      (s.router.nextY m.dy)).desk.Linked) (ended : Bool) :
    Level config ⟨⟨s.tracker.remoteScreen, some (s.pinned screen m), none, hopAccum⟩,
      s.router.moveInside screen (s.router.nextX m.dx) (s.router.nextY m.dy), ended⟩ := by
  have hinside := exitEdge_none hexit
  rw [moveInside_eq] at hlinked ⊢
  refine ⟨hlinked, h.home, ⟨h.ungated.1, ?_, ?_⟩, h.settings, h.screen, ?_, ?_, ?_, hhopped, ?_⟩
  · simp [h.ungated.2.1]
  · simp [h.ungated.2.2]
  · simp only [cursorPosition, moved, pinned]
    congr 2 <;> omega
  · intro screen' edge hs' hedge
    obtain rfl : screen' = screen := Option.some.inj (hs'.symm.trans hs)
    by_cases hgo : s.router.letsGo screen' (s.router.nextX m.dx).toNat (s.router.nextY m.dy).toNat
    · simp [hgo] at hedge
    · have hpush : s.router.pushEdge = some edge := by simpa [hgo] using hedge
      rw [letsGo, hpush, Option.all_some, decide_eq_true_eq] at hgo
      exact Nat.not_lt.mp hgo
  · by_cases hgo : s.router.letsGo screen (s.router.nextX m.dx).toNat (s.router.nextY m.dy).toNat
    · simp [hgo, edgePushPx]
    · simpa [hgo] using h.pushed
  · intro edge _ hedge
    cases hedge

/-- Past an edge that holds the router, no screen is behind it. -/
lemma held (h : s.Level config) {reason : ClampReason}
    (hgate : s.router.gate m.now edge = .error reason)
    (hhopped : 0 ≤ hopAccum ∧ hopAccum < edgePushPx)
    (hhop : ∀ edge', hopEdge = some edge' → edge' = edge)
    (hlinked : (s.router.clearPush.clampToEdge (s.router.nextX m.dx) (s.router.nextY m.dy)
      screen.width screen.height reason).1.desk.Linked) (ended : Bool) :
    Level config ⟨⟨s.tracker.remoteScreen, some (s.pinned screen m), hopEdge, hopAccum⟩,
      (s.router.clearPush.clampToEdge (s.router.nextX m.dx) (s.router.nextY m.dy) screen.width
        screen.height reason).1, ended⟩ := by
  refine ⟨hlinked, h.home, h.ungated, h.settings, h.screen, rfl, ?_, ⟨le_rfl, edgePushPx_pos⟩,
    hhopped, ?_⟩
  · intro screen' edge' _ hedge
    cases hedge
  · intro edge' hsome hedge
    obtain rfl := hhop edge' hedge
    obtain ⟨target, htarget⟩ := Option.isSome_iff_exists.mp hsome
    obtain ⟨hlocked, hstartup, hpost⟩ := h.ungated
    have htarget' : s.router.crossingTarget s.router.currentScreen edge' = some target := htarget
    simp [gate, hlocked, hstartup, hpost, htarget'] at hgate

/-- Past an edge that may be crossed, both runs grow by the overflow. -/
lemma saving (h : s.Level config) {target : ScreenId}
    (hs : s.router.layout.screen s.router.currentScreen = some screen)
    (hc : s.router.cursorX < screen.width ∧ s.router.cursorY < screen.height)
    (hexit : s.router.exitEdge screen m.dx m.dy = some edge)
    (hgate : s.router.gate m.now edge = .ok target)
    (hsaved : s.router.savedPush screen edge (s.router.overflow screen edge m.dx m.dy) <
      edgePushPx)
    (hhopped : 0 ≤ hopAccum ∧ hopAccum < edgePushPx)
    (hhop : ∀ edge', hopEdge = some edge' → edge' = edge ∧
      hopAccum = s.tracker.run edge + s.router.overflow screen edge m.dx m.dy)
    (hlinked : ((s.router.creditPush screen edge (s.router.overflow screen edge m.dx
      m.dy)).clampToEdge (s.router.nextX m.dx) (s.router.nextY m.dy) screen.width screen.height
      .pushBudget).1.desk.Linked) (ended : Bool) :
    Level config ⟨⟨s.tracker.remoteScreen, some (s.pinned screen m), hopEdge, hopAccum⟩,
      ((s.router.creditPush screen edge (s.router.overflow screen edge m.dx m.dy)).clampToEdge
        (s.router.nextX m.dx) (s.router.nextY m.dy) screen.width screen.height .pushBudget).1,
      ended⟩ := by
  have hbounds := overflow_bounds hc hexit
  have heq := savedPush_eq h.pushed (h.near screen edge hs) hbounds
  have hrun : s.tracker.run edge ≤ s.router.run edge := h.run_le (by
    rw [(gate_ok hgate).2.1]
    rfl)
  have hpos : 0 ≤ s.router.run edge := by
    rw [EdgeRouter.run]
    split_ifs
    · exact h.pushed.1
    · exact le_rfl
  rw [creditPush_eq] at hlinked ⊢
  refine ⟨hlinked, h.home, h.ungated, h.settings, h.screen, rfl, ?_, ⟨?_, hsaved⟩, hhopped, ?_⟩
  · intro screen' edge' hs' hedge
    obtain rfl : screen' = screen := Option.some.inj (hs'.symm.trans hs)
    obtain rfl := Option.some.inj hedge
    exact (distance_clamped ⟨by omega, by omega⟩ hexit).le.trans (Nat.zero_le _)
  · show 0 ≤ s.router.savedPush screen edge _
    rw [heq]
    split_ifs
    · omega
    · exact le_min hbounds.1.le (by decide)
  · intro edge' _ hedge
    obtain ⟨rfl, haccum⟩ := hhop edge' hedge
    refine ⟨rfl, ?_⟩
    show hopAccum ≤ s.router.savedPush screen edge' _
    rw [heq, haccum]
    split_ifs with hnear
    · omega
    · have hpush : s.router.pushEdge ≠ some edge' := fun heq =>
        hnear ((h.near screen edge' hs heq).trans (by decide))
      have hzero : s.router.run edge' = 0 := if_neg hpush
      rw [haccum] at hhopped
      simp only [edgePushPx] at hhopped ⊢
      omega

end

/-- A motion that does not hand off leaves the two level. -/
lemma step (h : s.Level config) (hended : (s.step config geometry m).1.ended = false) :
    (s.step config geometry m).1.Level config := by
  obtain ⟨⟨router, event⟩, hroute⟩ := route_isSome h.linked m.now (.mouseMove m.dx m.dy)
  have hstep : (s.step config geometry m).1 =
      ⟨(s.tracker.move config m.os geometry m.dx m.dy).1, router,
        s.ended || (s.tracker.move config m.os geometry m.dx m.dy).2.hops || event.hops⟩ := by
    simp only [HopPair.step, hroute]
  rw [hstep] at hended ⊢
  simp only [Bool.or_eq_false_iff] at hended
  obtain ⟨⟨-, hhops⟩, hevent⟩ := hended
  have hlinked := route_linked h.linked hroute
  obtain ⟨screen, hs, hc, hlocal⟩ := route_local_step h.linked h.home hroute
  obtain ⟨hopEdge, hopAccum, hmove, hhopped, hhop⟩ := h.move_level hs hc hhops
  rw [hmove]
  generalize hpair : (router, event) = pair at hlocal
  cases hlocal with
  | inside hexit =>
    obtain ⟨rfl, rfl⟩ := Prod.mk.inj hpair
    obtain rfl : hopEdge = none := by
      by_contra hne
      obtain ⟨edge, hedge⟩ := Option.ne_none_iff_exists'.mp hne
      rw [(hhop edge hedge).1] at hexit
      cases hexit
    exact h.inside hs hexit hhopped hlinked _
  | held edge reason hexit hgate =>
    obtain ⟨rfl, rfl⟩ := Prod.mk.inj hpair
    refine h.held hgate hhopped (fun edge' hedge => ?_) hlinked _
    exact Option.some.inj ((hhop edge' hedge).1.symm.trans hexit)
  | saving edge target hexit hgate hsaved =>
    obtain ⟨rfl, rfl⟩ := Prod.mk.inj hpair
    refine h.saving hs hc hexit hgate hsaved hhopped (fun edge' hedge => ?_) hlinked _
    obtain ⟨hexit', haccum⟩ := hhop edge' hedge
    obtain rfl := Option.some.inj (hexit'.symm.trans hexit)
    exact ⟨rfl, haccum⟩
  | crossing edge target targetScreen hexit hgate hsaved htarget =>
    obtain ⟨-, rfl⟩ := Prod.mk.inj hpair
    cases hevent

end Level

/-! ### Runs -/

/-- A receiver whose cursor was just taken over, and a router placed at the same point. -/
def start (r : EdgeRouter) (edgeMode : EdgeMode) (style : DoubleEdgeStyle) (x y : ℕ) : HopPair where
  tracker := ⟨some r.localScreen, some (x, y), none, 0⟩
  router := (((r.setEdgeMode edgeMode).setDoubleStyle style).placeLocalCursor x y).1
  ended := false

def after (config : ReceiverConfig) (geometry : Option ScreenGeometry) (s : HopPair)
    (motions : List HopMotion) : HopPair :=
  Trace.final (step config geometry) s motions

lemma new_home {l : Layout} {r : EdgeRouter} (h : EdgeRouter.new l = .ok r) :
    r.layout = l ∧ r.currentScreen = r.localScreen ∧ r.activeRemote = none ∧ r.locked = false := by
  obtain ⟨-, screen, hr⟩ := EdgeRouter.new_started h
  exact ⟨hr.layout, hr.current, hr.active, hr.locked⟩

/-- A placement on the local screen lands where it says. -/
lemma placeLocalCursor_inside {r : EdgeRouter} (hactive : r.activeRemote = none) {screen : Screen}
    (hs : r.layout.screen r.localScreen = some screen) {x y : ℕ} (hx : x < screen.width)
    (hy : y < screen.height) :
    (r.placeLocalCursor x y).1 =
      { r with
        cursorX := x, cursorY := y, localCursorX := x, localCursorY := y, pushEdge := none,
        pushAccum := 0, lastClamp := none, lastResyncReset := none, postReturnEdge := none,
        postReturnAt := none, startupGate := false } := by
  have hxmin : min x (screen.width - 1) = x := by omega
  have hymin : min y (screen.height - 1) = y := by omega
  rw [placeLocalCursor, seedPosition, hactive, hs]
  simp only [Option.isSome_none, Bool.false_eq_true, if_false, hxmin, hymin, Bool.false_and]

lemma start_level {l : Layout} {r : EdgeRouter} (hnew : EdgeRouter.new l = .ok r) {screen : Screen}
    (hs : l.screen r.localScreen = some screen) {x y : ℕ} (hx : x < screen.width)
    (hy : y < screen.height) (deviceName : String) (edgeMode : EdgeMode)
    (style : DoubleEdgeStyle) :
    (start r edgeMode style x y).Level ⟨deviceName, l, edgeMode, style⟩ := by
  have hlinked : (start r edgeMode style x y).router.desk.Linked := by
    have hset : ((r.setEdgeMode edgeMode).setDoubleStyle style).desk.Linked :=
      (new_ok hnew).2.linked
    have hstep : ((r.setEdgeMode edgeMode).setDoubleStyle style).step (.placeLocalCursor x y) =
        some ((start r edgeMode style x y).router, _) := rfl
    exact step_linked hset hstep
  obtain ⟨hlayout, hcurrent, hactive, hlocked⟩ := new_home hnew
  have hscreen : r.layout.screen r.localScreen = some screen := by rw [hlayout, hs]
  have hplace : (start r edgeMode style x y).router = _ :=
    placeLocalCursor_inside (r := (r.setEdgeMode edgeMode).setDoubleStyle style) hactive hscreen
      hx hy
  refine ⟨hlinked, ?_, ?_, ?_, ?_, ?_, ?_, ?_, ⟨le_rfl, edgePushPx_pos⟩, ?_⟩
  · rw [hplace]
    exact hactive
  · rw [hplace]
    exact ⟨hlocked, rfl, rfl⟩
  · rw [hplace]
    exact ⟨hlayout.symm, rfl, rfl⟩
  · rw [hplace]
    exact congrArg some hcurrent.symm
  · rw [hplace]
    rfl
  · rw [hplace]
    intro _ _ _ hedge
    cases hedge
  · rw [hplace]
    exact ⟨le_rfl, edgePushPx_pos⟩
  · intro _ _ hedge
    cases hedge

lemma ended_of_step (h : (s.step config geometry m).1.ended = false) : s.ended = false := by
  simp only [HopPair.step] at h
  split at h
  · cases h
  · simp only [Bool.or_eq_false_iff] at h
    exact h.1.1

/-- Until one of them hands off, the two stay level. -/
lemma Level.after (h : s.Level config) (motions : List HopMotion)
    (hended : (after config geometry s motions).ended = false) :
    (after config geometry s motions).Level config := by
  refine Trace.always (I := fun _ (s' : HopPair) => s'.ended = false → s'.Level config)
    (fun _ => h) ?_ hended
  intro past m hlevel hended
  exact (hlevel (ended_of_step hended)).step hended

/-- **The receiver asks for a hop when the router would cross**, motion by motion until one of
them does, exactly if every motion is paced. -/
theorem alike_iff_paced {l : Layout} {r : EdgeRouter} (hnew : EdgeRouter.new l = .ok r)
    {screen : Screen} (hs : l.screen r.localScreen = some screen) {x y : ℕ} (hx : x < screen.width)
    (hy : y < screen.height) (deviceName : String) (edgeMode : EdgeMode) (style : DoubleEdgeStyle)
    (geometry : Option ScreenGeometry) (motions : List HopMotion) :
    let config : ReceiverConfig := ⟨deviceName, l, edgeMode, style⟩
    let s := start r edgeMode style x y
    Trace.Each (fun past m => (after config geometry s past).Alike config geometry m) motions ↔
      Trace.Each (fun past m => (after config geometry s past).Paced m) motions := by
  intro config s
  refine Trace.each_congr fun past m _ => ?_
  by_cases hended : (after config geometry s past).ended = false
  · exact ((start_level hnew hs hx hy deviceName edgeMode style).after past hended).alike_iff
  · exact iff_of_true (fun h => absurd h hended) (fun h => absurd h hended)

/-- Two pushes of 5 px at the border, the second of which hands off. -/
theorem alike_pushes : ∃ r : EdgeRouter,
    EdgeRouter.new (twoScreens 1 0 1280 800) = .ok r ∧
      let config : ReceiverConfig := ⟨"desk", twoScreens 1 0 1280 800, .double, .mirror⟩
      let motion : HopMotion := ⟨0, ⟨none, true, none⟩, 5, 0⟩
      let s := start r .double .mirror 1919 500
      (after config none s [motion, motion]).ended = true ∧
        Trace.Each (fun past m => (after config none s past).Alike config none m)
          [motion, motion] := by
  refine ⟨_, rfl, rfl, ?_⟩
  refine (alike_iff_paced rfl rfl (by decide) (by decide) "desk" .double .mirror none _).mpr ?_
  refine Trace.each_snoc (l := [_]).mpr ⟨Trace.each_singleton.mpr ?_, ?_⟩
  · intro _ screen edge hs hexit _
    obtain rfl := Option.some.inj hs
    obtain rfl := Option.some.inj hexit
    decide
  · intro _ screen edge hs hexit _
    obtain rfl := Option.some.inj hs
    obtain rfl := Option.some.inj hexit
    decide

/-- One fling from the middle of the screen to 81 px past the edge. -/
theorem fling_differs : ¬∀ (l : Layout) (r : EdgeRouter), EdgeRouter.new l = .ok r →
    ∀ screen, l.screen r.localScreen = some screen → ∀ x y, x < screen.width →
      y < screen.height → ∀ (deviceName : String) (edgeMode : EdgeMode)
      (style : DoubleEdgeStyle) (geometry : Option ScreenGeometry) (motions : List HopMotion),
      let config : ReceiverConfig := ⟨deviceName, l, edgeMode, style⟩
      let s := start r edgeMode style x y
      Trace.Each (fun past m => (after config geometry s past).Alike config geometry m)
        motions := by
  intro h
  have hall := h (twoScreens 1 0 1280 800) _ rfl _ rfl 1000 500 (by decide) (by decide) "desk"
    .double .mirror none [⟨0, ⟨none, true, none⟩, 1000, 0⟩]
  obtain ⟨-, router, event, hroute, hiff⟩ := Trace.each_singleton.mp hall rfl
  obtain ⟨rfl, rfl⟩ := Prod.mk.inj (Option.some.inj hroute)
  exact absurd (hiff.mp rfl) (by decide)

end HopPair

end TheKvm

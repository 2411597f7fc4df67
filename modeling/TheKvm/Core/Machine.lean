import Mathlib.Tactic.Ring
import TheKvm.Lib.Run
import TheKvm.Core.Grid
import TheKvm.Core.Route

/-!
The router as a machine: its public operations, and what one routed event can do.

`routeLocal_eq` and `routeDriving_eq` say that once; every invariant below cites them and
none unfolds `route`.
-/

namespace TheKvm

/-- A public operation of the router that may change its state. -/
inductive Op
  | route (now : Instant) (event : InputEvent)
  | setReturnHold (hold : Duration)
  | setHandoffGrace (grace : Duration)
  | setLocked (locked : Bool)
  | setEdgeMode (mode : EdgeMode)
  | setDoubleStyle (style : DoubleEdgeStyle)
  | setLayout (layout : Layout)
  | setLocalCursorPosition (x y : ℕ)
  | placeLocalCursor (x y : ℕ)
  | resyncIfLocal (x y : ℕ)
  | adoptLocalScreenSize (width height : ℕ)
  | adoptPeerScreenSize (fingerprint : String) (width height : ℕ)
  | returnToLocal (source : ScreenId) (x y : ℕ)
  | restoreLocal (source : ScreenId)
  | restoreLocalAtEdge (now : Instant) (source : ScreenId) (edge : Edge)
  | handoffTo (now : Instant) (target : ScreenId) (x y : ℕ)

/-- What an operation returns. -/
inductive Reply
  | none
  | routed (event : RoutedEvent)
  | done (result : Except String Unit)
  | dims (size : Option (ℕ × ℕ))
  | landed (result : Except String (ℕ × ℕ))
  | drives (result : Except String Bool)

namespace EdgeRouter

def step (r : EdgeRouter) : Op → Option (EdgeRouter × Reply)
  | .route now event => (r.route now event).map fun p => (p.1, .routed p.2)
  | .setReturnHold hold => some (r.setReturnHold hold, .none)
  | .setHandoffGrace grace => some (r.setHandoffGrace grace, .none)
  | .setLocked locked => some (r.setLocked locked, .none)
  | .setEdgeMode mode => some (r.setEdgeMode mode, .none)
  | .setDoubleStyle style => some (r.setDoubleStyle style, .none)
  | .setLayout layout => some ((r.setLayout layout).1, .done (r.setLayout layout).2)
  | .setLocalCursorPosition x y =>
    some ((r.setLocalCursorPosition x y).1, .done (r.setLocalCursorPosition x y).2)
  | .placeLocalCursor x y => some ((r.placeLocalCursor x y).1, .done (r.placeLocalCursor x y).2)
  | .resyncIfLocal x y => some (r.resyncIfLocal x y, .none)
  | .adoptLocalScreenSize width height =>
    some ((r.adoptLocalScreenSize width height).1, .dims (r.adoptLocalScreenSize width height).2)
  | .adoptPeerScreenSize fingerprint width height =>
    some ((r.adoptPeerScreenSize fingerprint width height).1,
      .dims (r.adoptPeerScreenSize fingerprint width height).2)
  | .returnToLocal source x y =>
    some ((r.returnToLocal source x y).1, .done (r.returnToLocal source x y).2)
  | .restoreLocal source => some ((r.restoreLocal source).1, .landed (r.restoreLocal source).2)
  | .restoreLocalAtEdge now source edge =>
    some ((r.restoreLocalAtEdge now source edge).1,
      .landed (r.restoreLocalAtEdge now source edge).2)
  | .handoffTo now target x y =>
    some ((r.handoffTo now target x y).1, .drives (r.handoffTo now target x y).2)

/-- A state some run of operations leads to, from `new` on a valid layout. -/
def Reachable (r : EdgeRouter) : Prop :=
  ∃ layout r₀ ops os, new layout = .ok r₀ ∧ Run.run step r₀ ops = some (r, os)

lemma Reachable.step {r r' : EdgeRouter} {op : Op} {reply : Reply} (h : r.Reachable)
    (hs : r.step op = some (r', reply)) : r'.Reachable := by
  obtain ⟨layout, r₀, ops, os, hnew, hrun⟩ := h
  exact ⟨layout, r₀, ops ++ [op], os ++ [reply], hnew,
    Run.run_snoc_some.mpr ⟨r, os, reply, hrun, hs, rfl⟩⟩

/-- What holds of new routers and is kept by every operation holds of reachable ones. -/
theorem Reachable.invariant {I : EdgeRouter → Prop}
    (hnew : ∀ layout r, new layout = .ok r → I r)
    (hstep : ∀ r op r' reply, I r → r.step op = some (r', reply) → I r')
    {r : EdgeRouter} (h : r.Reachable) : I r := by
  obtain ⟨layout, r₀, ops, os, hn, hrun⟩ := h
  exact Run.invariant_run hstep (hnew layout r₀ hn) hrun

/-! ### One routed motion -/

/-- The machine that only routes events. -/
def routed (r : EdgeRouter) (e : Instant × InputEvent) : Option (EdgeRouter × RoutedEvent) :=
  r.route e.1 e.2


lemma route_local {r : EdgeRouter} (hn : r.activeRemote = none) (now : Instant) (dx dy : Int32) :
    r.route now (.mouseMove dx dy) = r.routeLocal now dx dy := by
  unfold route
  rw [hn]

lemma route_local_other {r : EdgeRouter} (hn : r.activeRemote = none) {now : Instant}
    {event : InputEvent} (h : ∀ dx dy, event ≠ .mouseMove dx dy) :
    r.route now event = some (r, .localEvent event) := by
  unfold route
  rw [hn]
  cases event with
  | mouseMove dx dy => exact absurd rfl (h dx dy)
  | _ => rfl

lemma route_driving {r : EdgeRouter} {target : ScreenId} (ha : r.activeRemote = some target)
    (now : Instant) (event : InputEvent) :
    r.route now event = some (r.routeDriving now target event) := by
  unfold route
  rw [ha]

lemma routeDriving_other {r : EdgeRouter} (now : Instant) (target : ScreenId)
    {event : InputEvent} (h : ∀ dx dy, event ≠ .mouseMove dx dy) :
    r.routeDriving now target event = (r, .forward target event) := by
  unfold routeDriving
  split
  · next dx dy => exact absurd rfl (h dx dy)
  · rfl

/-- Where a motion would take the cursor. -/
def nextX (r : EdgeRouter) (dx : Int32) : ℤ := r.cursorX + dx.toInt
def nextY (r : EdgeRouter) (dy : Int32) : ℤ := r.cursorY + dy.toInt

/-- The edge of `screen` a motion overflows. -/
def exitEdge (r : EdgeRouter) (screen : Screen) (dx dy : Int32) : Option Edge :=
  edgeForOverflow (r.nextX dx) (r.nextY dy) screen.width screen.height

/-- How far past `edge` of `screen` a motion goes. -/
def overflow (r : EdgeRouter) (screen : Screen) (edge : Edge) (dx dy : Int32) : ℤ :=
  overflowPast edge (r.nextX dx) (r.nextY dy) screen.width screen.height

/-- How far the cursor is from `edge` of its screen. -/
def depth (r : EdgeRouter) (edge : Edge) : ℤ :=
  ((r.layout.screen r.currentScreen).map fun s =>
    distanceFromEdge edge r.cursorX r.cursorY s.width s.height).getD 0

lemma depth_nonneg {r : EdgeRouter} (edge : Edge) : 0 ≤ r.depth edge := Int.natCast_nonneg _

/-- The gates before the push budget: the reason that holds a crossing through `edge`, or
the screen it leads to. -/
def gate (r : EdgeRouter) (now : Instant) (edge : Edge) : Except ClampReason ScreenId :=
  if r.locked then .error .locked
  else match r.crossingTarget r.currentScreen edge with
    | none => .error .noTarget
    | some target =>
      if r.startupGate then .error .startupGate
      else if r.postReturnEdge = some edge ∧ r.postReturnHolds now then .error .postReturn
      else .ok target

lemma localExit_eq (nextX nextY : ℤ) (screen : Screen) :
    localExit nextX nextY screen =
      match edgeForOverflow nextX nextY screen.width screen.height with
      | none => (none, 0)
      | some edge => (some edge, overflowPast edge nextX nextY screen.width screen.height) := by
  unfold localExit edgeForOverflow
  split_ifs <;> rfl

/-- Motion on the local screen moves the cursor or pushes an edge. -/
lemma routeLocal_eq {r : EdgeRouter} {screen : Screen}
    (hs : r.layout.screen r.currentScreen = some screen) (now : Instant) (dx dy : Int32) :
    r.routeLocal now dx dy =
      match r.exitEdge screen dx dy with
      | none =>
        some (r.moveInside screen (r.nextX dx) (r.nextY dy), .localEvent (.mouseMove dx dy))
      | some edge =>
        r.push now screen edge (r.overflow screen edge dx dy) (r.nextX dx) (r.nextY dy) := by
  unfold routeLocal exitEdge overflow nextX nextY
  simp only [hs, localExit_eq]
  rcases edgeForOverflow _ _ _ _ <;> rfl

lemma gate_ok {r : EdgeRouter} {now : Instant} {edge : Edge} {target : ScreenId}
    (h : r.gate now edge = .ok target) :
    r.locked = false ∧ r.crossingTarget r.currentScreen edge = some target ∧
      r.startupGate = false ∧ ¬(r.postReturnEdge = some edge ∧ r.postReturnHolds now) := by
  unfold gate at h
  by_cases hlock : r.locked
  · simp [hlock] at h
  rw [if_neg hlock] at h
  rcases ht : r.crossingTarget r.currentScreen edge with _ | target'
  · simp [ht] at h
  simp only [ht] at h
  split_ifs at h with hg hp
  obtain rfl := Except.ok.inj h
  exact ⟨by simpa using hlock, rfl, by simpa using hg, hp⟩

/-- The outward run ends: the cursor is well inside its edge. -/
def letsGo (r : EdgeRouter) (screen : Screen) (x y : ℕ) : Bool :=
  r.pushEdge.all fun edge => 2 < distanceFromEdge edge x y screen.width screen.height

/-- The refractory of a return ends: the cursor is far inside its edge. -/
def pullsBack (r : EdgeRouter) (screen : Screen) (x y : ℕ) : Bool :=
  r.postReturnEdge.any fun suppressed =>
    postReturnClearPx ≤ distanceFromEdge suppressed x y screen.width screen.height

/-- Both cursors moved on the local screen. -/
def moved (r : EdgeRouter) (x y : ℕ) : EdgeRouter :=
  { r with cursorX := x, cursorY := y, localCursorX := x, localCursorY := y }

lemma moveInside_eq (r : EdgeRouter) (screen : Screen) (nextX nextY : ℤ) :
    r.moveInside screen nextX nextY =
      { r.moved nextX.toNat nextY.toNat with
        pushEdge := if r.letsGo screen nextX.toNat nextY.toNat then none else r.pushEdge
        pushAccum := if r.letsGo screen nextX.toNat nextY.toNat then 0 else r.pushAccum
        postReturnEdge :=
          if r.pullsBack screen nextX.toNat nextY.toNat then none else r.postReturnEdge
        postReturnAt := if r.pullsBack screen nextX.toNat nextY.toNat then none else r.postReturnAt
        startupGate := r.startupGate &&
          (r.moved nextX.toNat nextY.toNat).nearCrossingEdge edgePushPx } := by
  unfold moveInside
  have hr : (r.pushEdge.all fun edge =>
    decide (2 < distanceFromEdge edge nextX.toNat nextY.toNat screen.width screen.height)) =
      r.letsGo screen nextX.toNat nextY.toNat := rfl
  have hs : (r.postReturnEdge.any fun suppressed => decide (postReturnClearPx ≤
    distanceFromEdge suppressed nextX.toNat nextY.toNat screen.width screen.height)) =
      r.pullsBack screen nextX.toNat nextY.toNat := rfl
  -- None of the runs that may end here is read by `nearCrossingEdge`.
  have hn : ∀ (pushEdge : Option Edge) pushAccum postReturnEdge postReturnAt,
      ({ r.moved nextX.toNat nextY.toNat with
        pushEdge, pushAccum, postReturnEdge, postReturnAt } : EdgeRouter).nearCrossingEdge
          edgePushPx = (r.moved nextX.toNat nextY.toNat).nearCrossingEdge edgePushPx :=
    fun _ _ _ _ => rfl
  simp only [moved] at hn ⊢
  simp only [hr]
  rcases r.letsGo screen nextX.toNat nextY.toNat <;>
    simp only [Bool.false_eq_true, if_false, if_true, clearPush, hs] <;>
    rcases r.pullsBack screen nextX.toNat nextY.toNat <;>
    simp only [Bool.false_eq_true, if_false, if_true, hn] <;>
    rcases nearCrossingEdge _ edgePushPx <;> simp

/-- The run of overflow past a home-facing edge ends: the cursor is well inside it. -/
def retreats (r : EdgeRouter) (remote : Screen) (x y : ℕ) : Bool :=
  (r.returnEdge.or r.entryEdge).all fun edge =>
    2 < distanceFromEdge edge x y remote.width remote.height

/-- The cursor has come far enough inside to arm the edge of entry. -/
def settles (r : EdgeRouter) (remote : Screen) (x y : ℕ) : Bool :=
  r.entryEdge.any fun entry => settlePx ≤ distanceFromEdge entry x y remote.width remote.height

lemma roam_eq (r : EdgeRouter) (remote : Screen) (nextX nextY : ℤ) :
    r.roam remote nextX nextY =
      { r with
        cursorX := nextX.toNat
        cursorY := nextY.toNat
        returnAccum := if r.retreats remote nextX.toNat nextY.toNat then 0 else r.returnAccum
        returnEdge := if r.retreats remote nextX.toNat nextY.toNat then none else r.returnEdge
        returnEdgeAccum :=
          if r.retreats remote nextX.toNat nextY.toNat then 0 else r.returnEdgeAccum
        returnRunSince :=
          if r.retreats remote nextX.toNat nextY.toNat then none else r.returnRunSince
        returnArmed := r.returnArmed || r.settles remote nextX.toNat nextY.toNat } := by
  unfold roam
  have hr : ((r.returnEdge.or r.entryEdge).all fun edge =>
    decide (2 < distanceFromEdge edge nextX.toNat nextY.toNat remote.width remote.height)) =
      r.retreats remote nextX.toNat nextY.toNat := rfl
  have hs : (r.entryEdge.any fun entry => decide (settlePx ≤
    distanceFromEdge entry nextX.toNat nextY.toNat remote.width remote.height)) =
      r.settles remote nextX.toNat nextY.toNat := rfl
  simp only [hr]
  rcases r.retreats remote nextX.toNat nextY.toNat
  · simp only [Bool.false_eq_true, if_false, hs]
    rcases ha : r.returnArmed
    · rcases r.settles remote nextX.toNat nextY.toNat <;> simp
    · simp
  · simp only [if_true, clearReturnRun, hs]
    rcases ha : r.returnArmed
    · rcases r.settles remote nextX.toNat nextY.toNat <;> simp
    · simp

/-- What the outward run on `edge` has saved once an overflow is credited. -/
def savedPush (r : EdgeRouter) (screen : Screen) (edge : Edge) (overflow : ℤ) : ℤ :=
  if r.pushEdge = some edge then wrapI64 (r.pushAccum + r.pushCredit screen edge overflow)
  else r.pushCredit screen edge overflow

lemma creditPush_eq (r : EdgeRouter) (screen : Screen) (edge : Edge) (overflow : ℤ) :
    r.creditPush screen edge overflow =
      { r with pushEdge := some edge, pushAccum := r.savedPush screen edge overflow } := by
  unfold creditPush savedPush
  split_ifs with h
  · rw [← h]
  · rfl

/-- Where a crossing from `(x, y)` lands: inset on the axis of its entry, mapped along the
edge of exit. -/
def landingFrom (style : DoubleEdgeStyle) (screen targetScreen : Screen) (edge : Edge)
    (x y : ℕ) : ℕ × ℕ :=
  entryTargetCoords (style.entryForExit edge).opposite targetScreen
    (match edge with
      | .left | .right => mapCoordinate y screen.height targetScreen.height
      | .top | .bottom => mapCoordinate x screen.width targetScreen.width)

def landing (r : EdgeRouter) (screen targetScreen : Screen) (edge : Edge) : ℕ × ℕ :=
  landingFrom r.doubleStyle screen targetScreen edge r.cursorX r.cursorY

/-- The overshoot of a crossing, as the motion the peer applies after it. -/
def remainder (edge : Edge) (overflow : ℤ) : InputEvent :=
  match edge with
  | .left => .mouseMove (-saturatingI32 overflow) 0
  | .right => .mouseMove (saturatingI32 overflow) 0
  | .top => .mouseMove 0 (-saturatingI32 overflow)
  | .bottom => .mouseMove 0 (saturatingI32 overflow)

/-- The state a crossing leaves. -/
def crossed (r : EdgeRouter) (now : Instant) (screen targetScreen : Screen) (target : ScreenId)
    (edge : Edge) : EdgeRouter :=
  { r with
    localCursorX := if r.currentScreen = r.localScreen then r.cursorX else r.localCursorX
    localCursorY := if r.currentScreen = r.localScreen then r.cursorY else r.localCursorY
    pushEdge := none, pushAccum := 0, postReturnEdge := none, postReturnAt := none
    currentScreen := target
    cursorX := (r.landing screen targetScreen edge).1
    cursorY := (r.landing screen targetScreen edge).2
    activeRemote := some target
    entryEdge := some (r.doubleStyle.entryForExit edge)
    returnArmed := false, returnAccum := 0, returnEdge := none, returnEdgeAccum := 0
    returnRunSince := none, handoffAt := some now }

/-- A crossing clears the run that opened it. -/
lemma creditPush_cross (r : EdgeRouter) (now : Instant) (screen targetScreen : Screen)
    (target : ScreenId) (edge : Edge) (overflow : ℤ) :
    (r.creditPush screen edge overflow).cross now screen targetScreen target edge overflow =
      (r.crossed now screen targetScreen target edge,
        .handoff r.currentScreen target edge (r.landing screen targetScreen edge).1
          (r.landing screen targetScreen edge).2 (remainder edge overflow)) := by
  rw [creditPush_eq]
  unfold cross crossed
  by_cases h : r.currentScreen = r.localScreen <;> cases edge <;>
    simp only [h, if_true, if_false] <;> rfl

/-- A push is held by a gate, saved up, or crosses. -/
lemma push_eq (r : EdgeRouter) (now : Instant) (screen : Screen) (edge : Edge)
    (overflow nextX nextY : ℤ) :
    r.push now screen edge overflow nextX nextY =
      match r.gate now edge with
      | .error reason =>
        some (r.clearPush.clampToEdge nextX nextY screen.width screen.height reason)
      | .ok target =>
        if r.savedPush screen edge overflow < edgePushPx then
          some ((r.creditPush screen edge overflow).clampToEdge nextX nextY screen.width
            screen.height .pushBudget)
        else (r.layout.screen target).map fun targetScreen =>
          (r.crossed now screen targetScreen target edge,
            .handoff r.currentScreen target edge (r.landing screen targetScreen edge).1
              (r.landing screen targetScreen edge).2 (remainder edge overflow)) := by
  have hlayout : (r.creditPush screen edge overflow).layout = r.layout := by
    rw [creditPush_eq]
  have hsaved : (r.creditPush screen edge overflow).pushAccum =
      r.savedPush screen edge overflow := by
    rw [creditPush_eq]
  unfold push gate
  by_cases hl : r.locked
  · simp only [if_pos hl]
  simp only [if_neg hl]
  rcases r.crossingTarget r.currentScreen edge with _ | target
  · rfl
  by_cases hg : r.startupGate
  · simp only [if_pos hg]
  by_cases hp : r.postReturnEdge = some edge ∧ r.postReturnHolds now
  · simp only [if_neg hg, if_pos hp]
  simp only [if_neg hg, if_neg hp, hlayout, hsaved]
  split_ifs
  · rfl
  · rcases r.layout.screen target with _ | targetScreen
    · rfl
    · simp only [creditPush_cross, Option.map_some]

/-- **What one motion on the local screen can do.** -/
inductive LocalStep (r : EdgeRouter) (now : Instant) (dx dy : Int32) (screen : Screen) :
    EdgeRouter × RoutedEvent → Prop
  | inside (h : r.exitEdge screen dx dy = none) :
    LocalStep r now dx dy screen
      (r.moveInside screen (r.nextX dx) (r.nextY dy), .localEvent (.mouseMove dx dy))
  | held (edge : Edge) (reason : ClampReason) (h : r.exitEdge screen dx dy = some edge)
    (hg : r.gate now edge = .error reason) :
    LocalStep r now dx dy screen
      (r.clearPush.clampToEdge (r.nextX dx) (r.nextY dy) screen.width screen.height reason)
  | saving (edge : Edge) (target : ScreenId) (h : r.exitEdge screen dx dy = some edge)
    (hg : r.gate now edge = .ok target)
    (hb : r.savedPush screen edge (r.overflow screen edge dx dy) < edgePushPx) :
    LocalStep r now dx dy screen
      ((r.creditPush screen edge (r.overflow screen edge dx dy)).clampToEdge (r.nextX dx)
        (r.nextY dy) screen.width screen.height .pushBudget)
  | crossing (edge : Edge) (target : ScreenId) (targetScreen : Screen)
    (h : r.exitEdge screen dx dy = some edge) (hg : r.gate now edge = .ok target)
    (hb : edgePushPx ≤ r.savedPush screen edge (r.overflow screen edge dx dy))
    (ht : r.layout.screen target = some targetScreen) :
    LocalStep r now dx dy screen
      (r.crossed now screen targetScreen target edge,
        .handoff r.currentScreen target edge (r.landing screen targetScreen edge).1
          (r.landing screen targetScreen edge).2
          (remainder edge (r.overflow screen edge dx dy)))

theorem routeLocal_step {r : EdgeRouter} {screen : Screen}
    (hs : r.layout.screen r.currentScreen = some screen) {now : Instant} {dx dy : Int32}
    {p : EdgeRouter × RoutedEvent} (hp : r.routeLocal now dx dy = some p) :
    r.LocalStep now dx dy screen p := by
  rw [routeLocal_eq hs] at hp
  rcases he : r.exitEdge screen dx dy with _ | edge
  · simp only [he, Option.some.injEq] at hp
    exact hp ▸ .inside he
  simp only [he, push_eq] at hp
  rcases hg : r.gate now edge with reason | target
  · simp only [hg, Option.some.injEq] at hp
    exact hp ▸ .held edge reason he hg
  simp only [hg] at hp
  split_ifs at hp with hb
  · exact Option.some.inj hp ▸ .saving edge target he hg hb
  · obtain ⟨targetScreen, ht, rfl⟩ := Option.map_eq_some_iff.mp hp
    exact .crossing edge target targetScreen he hg (by omega) ht

/-- The edge of entry still clamps: the cursor has not settled inside. -/
def disarmed (r : EdgeRouter) (edge : Edge) : Bool := r.entryEdge = some edge && !r.returnArmed

/-- Motion on a driven screen roams or presses an edge. -/
lemma routeDriving_eq {r : EdgeRouter} {remote : Screen}
    (hs : r.layout.screen r.currentScreen = some remote) (now : Instant) (target : ScreenId)
    (dx dy : Int32) :
    r.routeDriving now target (.mouseMove dx dy) =
      match r.exitEdge remote dx dy with
      | none =>
        (r.roam remote (r.nextX dx) (r.nextY dy), .forward target (.mouseMove dx dy))
      | some edge =>
        r.press now r.currentScreen target remote edge (r.nextX dx) (r.nextY dy)
          (.mouseMove dx dy) := by
  unfold routeDriving
  simp only [hs]
  rfl

/-- The escape run of a disarmed edge of entry after one more overflow. -/
def shove (r : EdgeRouter) (overflow : ℤ) : EdgeRouter :=
  { r with returnAccum := wrapI64 (r.returnAccum + overflow) }

/-- What one overflow past a home-facing edge adds to the run on it. -/
def returnCredit (r : EdgeRouter) (overflow : ℤ) : ℤ :=
  if r.returnArmed then overflow else min overflow (returnPushPx - 1)

/-- What the run on `edge` has saved once an overflow is credited. -/
def savedReturn (r : EdgeRouter) (edge : Edge) (overflow : ℤ) : ℤ :=
  if r.returnEdge = some edge then wrapI64 (r.returnEdgeAccum + r.returnCredit overflow)
  else r.returnCredit overflow

lemma creditReturn_eq (r : EdgeRouter) (now : Instant) (edge : Edge) (overflow : ℤ) :
    r.creditReturn now edge overflow =
      { r with
        returnEdge := some edge
        returnEdgeAccum := r.savedReturn edge overflow
        returnRunSince := if r.returnEdge = some edge then r.returnRunSince else some now } := by
  unfold creditReturn savedReturn
  by_cases h : r.returnEdge = some edge
  · simp only [if_pos h]
    rw [← h]
    rfl
  · simp only [if_neg h]
    rfl

/-- **What one motion on a driven screen can do.** -/
inductive DriveStep (r : EdgeRouter) (now : Instant) (target : ScreenId) (dx dy : Int32)
    (remote : Screen) : EdgeRouter × RoutedEvent → Prop
  | roams (h : r.exitEdge remote dx dy = none) :
    DriveStep r now target dx dy remote
      (r.roam remote (r.nextX dx) (r.nextY dy), .forward target (.mouseMove dx dy))
  | returns (edge : Edge) (h : r.exitEdge remote dx dy = some edge)
    (hf : r.facesHome r.currentScreen edge = true) (hd : r.disarmed edge = false)
    (hr : (r.creditReturn now edge
      (max (r.overflow remote edge dx dy) 0)).returnFires now = true) :
    DriveStep r now target dx dy remote
      ((r.creditReturn now edge (max (r.overflow remote edge dx dy) 0)).comeHome now
        r.currentScreen target edge)
  | builds (edge : Edge) (h : r.exitEdge remote dx dy = some edge)
    (hf : r.facesHome r.currentScreen edge = true) (hd : r.disarmed edge = false)
    (hr : (r.creditReturn now edge
      (max (r.overflow remote edge dx dy) 0)).returnFires now = false) :
    DriveStep r now target dx dy remote
      ((r.creditReturn now edge (max (r.overflow remote edge dx dy) 0)).pinTo (r.nextX dx)
        (r.nextY dy) remote.width remote.height, .forward target (.mouseMove dx dy))
  | escapes (edge : Edge) (h : r.exitEdge remote dx dy = some edge)
    (hf : r.facesHome r.currentScreen edge = true) (hd : r.disarmed edge = true)
    (hr : returnPushPx ≤ (r.shove (max (r.overflow remote edge dx dy) 0)).returnAccum ∧
      r.inHandoffGrace now = false) :
    DriveStep r now target dx dy remote
      ((r.shove (max (r.overflow remote edge dx dy) 0)).comeHome now r.currentScreen target edge)
  | shoves (edge : Edge) (h : r.exitEdge remote dx dy = some edge)
    (hf : r.facesHome r.currentScreen edge = true) (hd : r.disarmed edge = true)
    (hr : ¬(returnPushPx ≤ (r.shove (max (r.overflow remote edge dx dy) 0)).returnAccum ∧
      r.inHandoffGrace now = false)) :
    DriveStep r now target dx dy remote
      ((r.shove (max (r.overflow remote edge dx dy) 0)).pinTo (r.nextX dx) (r.nextY dy)
        remote.width remote.height, .forward target (.mouseMove dx dy))
  | clamps (edge : Edge) (h : r.exitEdge remote dx dy = some edge)
    (hf : r.facesHome r.currentScreen edge = false) :
    DriveStep r now target dx dy remote
      (r.clearReturnRun.pinTo (r.nextX dx) (r.nextY dy) remote.width remote.height,
        .forward target (.mouseMove dx dy))

theorem routeDriving_step {r : EdgeRouter} {remote : Screen}
    (hs : r.layout.screen r.currentScreen = some remote) (now : Instant) (target : ScreenId)
    (dx dy : Int32) :
    r.DriveStep now target dx dy remote (r.routeDriving now target (.mouseMove dx dy)) := by
  rw [routeDriving_eq hs]
  rcases he : r.exitEdge remote dx dy with _ | edge
  · exact .roams he
  simp only
  unfold press
  have ho : overflowPast edge (r.nextX dx) (r.nextY dy) remote.width remote.height =
    r.overflow remote edge dx dy := rfl
  rw [ho]
  rcases hf : r.facesHome r.currentScreen edge
  · simp only [Bool.false_and, Bool.false_eq_true, if_false]
    exact .clamps edge he hf
  rcases hd : r.disarmed edge
  · have hd' : (decide (r.entryEdge = some edge) && !r.returnArmed) = false := hd
    simp only [hd', Bool.not_false, Bool.and_true, if_true]
    rcases hr : (r.creditReturn now edge (max (r.overflow remote edge dx dy) 0)).returnFires now
    · rw [if_neg Bool.false_ne_true]
      exact .builds edge he hf hd hr
    · rw [if_pos rfl]
      exact .returns edge he hf hd hr
  · have hd' : (decide (r.entryEdge = some edge) && !r.returnArmed) = true := hd
    simp only [hd', Bool.not_true, Bool.and_false, Bool.false_eq_true, if_false, if_true]
    by_cases hr : returnPushPx ≤ (r.shove (max (r.overflow remote edge dx dy) 0)).returnAccum ∧
      r.inHandoffGrace now = false
    · rw [if_pos (by simp only [Bool.and_eq_true, decide_eq_true_eq, Bool.not_eq_true']; exact hr)]
      exact .escapes edge he hf hd hr
    · rw [if_neg (by simp only [Bool.and_eq_true, decide_eq_true_eq, Bool.not_eq_true']; exact hr)]
      exact .shoves edge he hf hd hr

/-- What is routed to a driven screen is a motion on it, or goes out as it is. -/
lemma routeDriving_cases (r : EdgeRouter) (now : Instant) (target : ScreenId)
    (event : InputEvent) :
    r.routeDriving now target event = (r, .forward target event) ∨
      ∃ dx dy remote, event = .mouseMove dx dy ∧ r.layout.screen r.currentScreen = some remote ∧
        r.DriveStep now target dx dy remote (r.routeDriving now target event) := by
  by_cases hmove : ∃ dx dy, event = .mouseMove dx dy
  · obtain ⟨dx, dy, rfl⟩ := hmove
    rcases hs : r.layout.screen r.currentScreen with _ | remote
    · left
      unfold routeDriving
      simp only [hs]
    · exact Or.inr ⟨dx, dy, remote, rfl, rfl, routeDriving_step hs now target dx dy⟩
  · exact Or.inl (routeDriving_other now target fun dx dy he => hmove ⟨dx, dy, he⟩)

/-! ### Resyncing to the pointer of the platform -/

/-- How far a truth resync moves the cursor. -/
def resyncJump (r : EdgeRouter) (x y : ℕ) : ℕ := max (absDiff x r.cursorX) (absDiff y r.cursorY)

/-- The push run after a truth resync to `(x, y)`: a jump inward is taken off it. -/
def resyncPush (r : EdgeRouter) (screen : Screen) (x y : ℕ) : Option Edge × ℤ :=
  match r.pushEdge with
  | none => (none, r.pushAccum)
  | some edge =>
    let retreat := distanceFromEdge edge x y screen.width screen.height -
      distanceFromEdge edge r.cursorX r.cursorY screen.width screen.height
    if r.resyncJump x y ≤ resyncDivergePx then (some edge, r.pushAccum)
    else if wrapI64 (r.pushAccum - (retreat : ℕ)) ≤ 0 then (none, 0)
    else (some edge, wrapI64 (r.pushAccum - (retreat : ℕ)))

/-- A cursor report is of use only to a router that is at home, on a screen that exists. -/
lemma home_cases (r : EdgeRouter) :
    (r.activeRemote ≠ none ∨ r.currentScreen ≠ r.localScreen ∨
        r.layout.screen r.localScreen = none) ∨
      ∃ screen, r.activeRemote = none ∧ r.currentScreen = r.localScreen ∧
        r.layout.screen r.localScreen = some screen := by
  by_cases hn : r.activeRemote = none
  · by_cases hc : r.currentScreen = r.localScreen
    · cases hs : r.layout.screen r.localScreen with
      | none => exact Or.inl (Or.inr (Or.inr rfl))
      | some screen => exact Or.inr ⟨screen, hn, hc, rfl⟩
    · exact Or.inl (Or.inr (Or.inl hc))
  · exact Or.inl (Or.inl hn)

lemma resyncIfLocal_refused {r : EdgeRouter} (x y : ℕ)
    (h : r.activeRemote ≠ none ∨ r.currentScreen ≠ r.localScreen ∨
      r.layout.screen r.localScreen = none) : r.resyncIfLocal x y = r := by
  unfold resyncIfLocal
  split_ifs with hg
  · rfl
  · simp only [Bool.or_eq_true, decide_eq_true_eq, not_or, not_not] at hg
    have hn : r.activeRemote = none := Option.not_isSome_iff_eq_none.mp hg.1
    rw [(h.resolve_left (not_not_intro hn)).resolve_left (not_not_intro hg.2)]

lemma resyncIfLocal_eq {r : EdgeRouter} (x y : ℕ) (hn : r.activeRemote = none)
    (hc : r.currentScreen = r.localScreen) {screen : Screen}
    (hs : r.layout.screen r.localScreen = some screen) :
    r.resyncIfLocal x y =
      { r.moved (min x (screen.width - 1)) (min y (screen.height - 1)) with
        pushEdge := (r.resyncPush screen (min x (screen.width - 1)) (min y (screen.height - 1))).1
        pushAccum := (r.resyncPush screen (min x (screen.width - 1)) (min y (screen.height - 1))).2
        lastResyncReset :=
          if resyncDivergePx <
              r.resyncJump (min x (screen.width - 1)) (min y (screen.height - 1)) ∧
            r.pushEdge.isSome ∧ r.pushAccum ≠ 0 then
            some ⟨r.resyncJump (min x (screen.width - 1)) (min y (screen.height - 1)),
              min x (screen.width - 1), min y (screen.height - 1)⟩
          else r.lastResyncReset } := by
  have hg : ¬(r.activeRemote.isSome || decide (r.currentScreen ≠ r.localScreen)) = true := by
    simp [hn, hc]
  unfold resyncIfLocal
  rw [if_neg hg]
  simp only [hs]
  generalize min x (screen.width - 1) = px
  generalize min y (screen.height - 1) = py
  have hj : max (absDiff px r.cursorX) (absDiff py r.cursorY) = r.resyncJump px py := rfl
  rw [hj]
  by_cases hjump : resyncDivergePx < r.resyncJump px py
  · unfold resyncPush
    rcases hp : r.pushEdge with _ | edge
    · simp [hjump, hp, moved]
    · by_cases ha : r.pushAccum = 0
      · simp only [hjump, hp, ha, moved, if_pos, not_le.mpr hjump, Option.isSome_some, true_and,
          ne_eq, not_true_eq_false, decide_false, Bool.and_false, Bool.false_eq_true, if_false]
        split_ifs <;> rfl
      · simp only [hjump, hp, ha, moved, if_pos, if_neg, not_le.mpr hjump, Option.isSome_some,
          true_and, ne_eq, not_false_eq_true, decide_true, Bool.and_true]
        split_ifs <;> rfl
  · rw [if_neg hjump]
    unfold resyncPush
    rcases hp : r.pushEdge with _ | edge
    · simp [hjump, moved, hp]
    · simp [hjump, moved, hp, not_lt.mp hjump]
/-! ### What routing leaves alone -/

/-- The fields that only settings, arrangements and measured sizes change. -/
structure Settings where
  layout : Layout
  localScreen : ScreenId
  edgeMode : EdgeMode
  doubleStyle : DoubleEdgeStyle
  locked : Bool
  returnHold : Duration
  handoffGrace : Duration

def settings (r : EdgeRouter) : Settings :=
  ⟨r.layout, r.localScreen, r.edgeMode, r.doubleStyle, r.locked, r.returnHold, r.handoffGrace⟩

/-- Where a return from `source` lands at an edge of the local screen. -/
def homeLanding (r : EdgeRouter) (source : ScreenId) (screen : Screen) (landing : Edge) : ℕ × ℕ :=
  let (remoteWidth, remoteHeight) := match r.layout.screen source with
    | some remote => (remote.width, remote.height)
    | none => (screen.width, screen.height)
  match landing with
  | .left => (returnInsetPx, mapCoordinate r.cursorY remoteHeight screen.height)
  | .right =>
    (screen.width - 1 - returnInsetPx, mapCoordinate r.cursorY remoteHeight screen.height)
  | .top => (mapCoordinate r.cursorX remoteWidth screen.width, returnInsetPx)
  | .bottom =>
    (mapCoordinate r.cursorX remoteWidth screen.width, screen.height - 1 - returnInsetPx)

/-- A return to an edge parks on the local screen and forgets the drive. -/
lemma restoreLocalAtEdge_eq {r : EdgeRouter} (now : Instant) {source : ScreenId} (edge : Edge)
    (ha : r.activeRemote = some source) {screen : Screen}
    (hs : r.layout.screen r.localScreen = some screen) :
    (r.restoreLocalAtEdge now source edge).1 =
      { (r.landLocal
          (min (r.homeLanding source screen (r.landingEdge edge)).1 (screen.width - 1))
          (min (r.homeLanding source screen (r.landingEdge edge)).2
            (screen.height - 1))).clearDrive with
        postReturnEdge := some (r.landingEdge edge), postReturnAt := some now } := by
  unfold restoreLocalAtEdge
  simp only [ha, hs, ne_eq, not_true_eq_false, if_false]
  rfl

/-- A refused return changes nothing. -/
lemma restoreLocalAtEdge_refused {r : EdgeRouter} (now : Instant) {source : ScreenId}
    (edge : Edge) (h : r.activeRemote ≠ some source ∨ r.layout.screen r.localScreen = none) :
    (r.restoreLocalAtEdge now source edge).1 = r := by
  unfold restoreLocalAtEdge
  split_ifs with ha
  · rfl
  · rw [h.resolve_left (not_not_intro (not_not.mp ha))]

lemma restoreLocalAtEdge_settings (r : EdgeRouter) (now : Instant) (source : ScreenId)
    (edge : Edge) : (r.restoreLocalAtEdge now source edge).1.settings = r.settings := by
  unfold restoreLocalAtEdge
  split_ifs
  · rfl
  · split <;> rfl

lemma routeDriving_settings (r : EdgeRouter) (now : Instant) (target : ScreenId)
    (event : InputEvent) : (r.routeDriving now target event).1.settings = r.settings := by
  rcases r.routeDriving_cases now target event with hout | ⟨dx, dy, remote, rfl, hs, hstep⟩
  · rw [hout]
  generalize r.routeDriving now target (.mouseMove dx dy) = p at hstep
  cases hstep with
  | roams h => rw [roam_eq]; rfl
  | returns edge h hf hd hr =>
    rw [creditReturn_eq]
    exact restoreLocalAtEdge_settings _ _ _ _
  | builds edge h hf hd hr => rw [creditReturn_eq]; rfl
  | escapes edge h hf hd hr => exact restoreLocalAtEdge_settings _ _ _ _
  | shoves edge h hf hd hr => rfl
  | clamps edge h hf => rfl

lemma routeLocal_settings {r : EdgeRouter} {now : Instant} {dx dy : Int32}
    {p : EdgeRouter × RoutedEvent} (hp : r.routeLocal now dx dy = some p) :
    p.1.settings = r.settings := by
  rcases hs : r.layout.screen r.currentScreen with _ | screen
  · unfold routeLocal at hp
    simp [hs] at hp
  cases routeLocal_step hs hp with
  | inside h => rw [moveInside_eq]; rfl
  | held edge reason h hg => rfl
  | saving edge target h hg hb => rw [creditPush_eq]; rfl
  | crossing edge target targetScreen h hg hb ht => rfl

/-- **Routing leaves the settings alone.** -/
theorem route_settings {r r' : EdgeRouter} {now : Instant} {event : InputEvent}
    {reply : RoutedEvent} (h : r.route now event = some (r', reply)) :
    r'.settings = r.settings := by
  rcases ha : r.activeRemote with _ | target
  · by_cases hmove : ∃ dx dy, event = .mouseMove dx dy
    · obtain ⟨dx, dy, rfl⟩ := hmove
      rw [route_local ha] at h
      exact routeLocal_settings h
    · rw [route_local_other ha fun dx dy he => hmove ⟨dx, dy, he⟩] at h
      obtain ⟨rfl, -⟩ := Prod.mk.inj (Option.some.inj h)
      rfl
  · rw [route_driving ha] at h
    have hp := congrArg (fun p => p.1.settings) (Option.some.inj h)
    exact hp.symm.trans (routeDriving_settings r now target event)

/-! ### New routers -/

/-- At home, in the middle of the local screen, with nothing saved. -/
structure Started (l : Layout) (screen : Screen) (r : EdgeRouter) : Prop where
  layout : r.layout = l
  onLayout : l.screen r.localScreen = some screen
  current : r.currentScreen = r.localScreen
  active : r.activeRemote = none
  cursor : r.cursorPosition = (screen.width / 2, screen.height / 2)
  localCursor : r.localCursorPosition = (screen.width / 2, screen.height / 2)
  push : r.pushAccum = 0
  locked : r.locked = false

lemma new_started {layout : Layout} {r : EdgeRouter} (h : new layout = .ok r) :
    layout.validate = .ok () ∧ ∃ screen, Started layout screen r := by
  unfold new at h
  rcases hval : layout.validate with message | ⟨⟨⟩⟩
  · simp [hval] at h
  simp only [hval] at h
  rcases hc : layout.selfScreen.or (layout.screens.head?.map (·.id)) with _ | id
  · simp [hc] at h
  simp only [hc] at h
  rcases hs : layout.screen id with _ | screen
  · simp [hs] at h
  simp only [hs, Except.ok.injEq] at h
  subst h
  exact ⟨rfl, screen, ⟨rfl, hs, rfl, rfl, rfl, rfl, rfl, rfl⟩⟩

end EdgeRouter

end TheKvm

import TheKvm.Core.Refine
import TheKvm.Daemon.Drive

/-!
The drive loop holds together: the session, the router and the suppression agree at every turn, and
a router left driving without a session comes home with the next event.
-/

namespace TheKvm

/-! ### Who has control -/

namespace EdgeRouter

/-- The links stay, and who is driven. -/
structure Keeps (r r' : EdgeRouter) : Prop where
  linked : r.desk.Linked → r'.desk.Linked
  remote : r'.activeRemote = r.activeRemote

variable {r r' r'' : EdgeRouter}

lemma Keeps.refl (r : EdgeRouter) : r.Keeps r := ⟨id, rfl⟩

lemma Keeps.trans (h : r.Keeps r') (h' : r'.Keeps r'') : r.Keeps r'' :=
  ⟨h'.linked ∘ h.linked, h'.remote.trans h.remote⟩

lemma op_linked (hl : r.desk.Linked) (op : Op) {reply : Reply}
    (hs : r.step op = some (r', reply)) : r'.desk.Linked := step_linked hl hs

lemma resyncIfLocal_keeps (r : EdgeRouter) (x y : ℕ) : r.Keeps (r.resyncIfLocal x y) := by
  refine ⟨fun hl => op_linked hl (.resyncIfLocal x y) rfl, ?_⟩
  rcases r.home_cases with h | ⟨screen, hn, hc, hs⟩
  · rw [resyncIfLocal_refused x y h]
  · rw [resyncIfLocal_eq x y hn hc hs]
    rfl

lemma seedPosition_remote (r : EdgeRouter) (x y : ℕ) (applyGate : Bool) :
    (r.seedPosition x y applyGate).1.activeRemote = r.activeRemote := by
  unfold seedPosition
  split_ifs
  · rfl
  · split <;> rfl

lemma placeLocalCursor_keeps (r : EdgeRouter) (x y : ℕ) : r.Keeps (r.placeLocalCursor x y).1 :=
  ⟨fun hl => op_linked hl (.placeLocalCursor x y) rfl, r.seedPosition_remote x y false⟩

lemma setLocalCursorPosition_keeps (r : EdgeRouter) (x y : ℕ) :
    r.Keeps (r.setLocalCursorPosition x y).1 :=
  ⟨fun hl => op_linked hl (.setLocalCursorPosition x y) rfl,
    r.seedPosition_remote x y true⟩

lemma adoptLocalScreenSize_keeps (r : EdgeRouter) (width height : ℕ) :
    r.Keeps (r.adoptLocalScreenSize width height).1 := by
  refine ⟨fun hl => op_linked hl (.adoptLocalScreenSize width height) rfl, ?_⟩
  unfold adoptLocalScreenSize
  split
  · rfl
  · split <;> rfl

lemma adoptPeerScreenSize_keeps (r : EdgeRouter) (fingerprint : String) (width height : ℕ) :
    r.Keeps (r.adoptPeerScreenSize fingerprint width height).1 := by
  refine ⟨fun hl => op_linked hl (.adoptPeerScreenSize fingerprint width height) rfl, ?_⟩
  unfold adoptPeerScreenSize
  split
  · rfl
  split
  · rfl
  split
  · rfl
  · simp only
    split_ifs <;> rfl

lemma setLocked_keeps (r : EdgeRouter) (locked : Bool) : r.Keeps (r.setLocked locked) :=
  ⟨fun hl => op_linked hl (.setLocked locked) rfl, rfl⟩

lemma setEdgeMode_keeps (r : EdgeRouter) (mode : EdgeMode) : r.Keeps (r.setEdgeMode mode) :=
  ⟨fun hl => op_linked hl (.setEdgeMode mode) rfl, rfl⟩

lemma setDoubleStyle_keeps (r : EdgeRouter) (style : DoubleEdgeStyle) :
    r.Keeps (r.setDoubleStyle style) :=
  ⟨fun hl => op_linked hl (.setDoubleStyle style) rfl, rfl⟩

/-- A new layout waits for the drive to end. -/
lemma setLayout_keeps (r : EdgeRouter) (layout : Layout) : r.Keeps (r.setLayout layout).1 := by
  refine ⟨fun hl => op_linked hl (.setLayout layout) rfl, ?_⟩
  unfold setLayout
  split
  · rfl
  split_ifs
  · rfl
  · rfl
  · simp only
    split <;> rfl

/-- The driven screen gives control back. -/
lemma restoreLocal_remote (hl : r.desk.Linked) {target : ScreenId}
    (ha : r.activeRemote = some target) : (r.restoreLocal target).1.activeRemote = none := by
  obtain ⟨screen, hs⟩ := hl.localIn
  have hs' : r.layout.screen r.localScreen = some screen := hs
  unfold restoreLocal
  simp only [ha, hs', ne_eq, not_true_eq_false, if_false]
  rfl

lemma handoffTo_linked (hl : r.desk.Linked) {now : Instant} {target : ScreenId} {x y : ℕ}
    {result : Except String Bool} (h : r.handoffTo now target x y = (r', result)) :
    r'.desk.Linked := by
  have hr : (r.handoffTo now target x y).1 = r' := by rw [h]
  exact hr ▸ op_linked hl (.handoffTo now target x y) rfl

lemma handoffTo_remote {now : Instant} {target : ScreenId} {x y : ℕ}
    (h : r.handoffTo now target x y = (r', .ok true)) : r'.activeRemote = some target := by
  unfold handoffTo at h
  split at h
  · cases h
  simp only at h
  by_cases hloc : r.localScreen = target
  · rw [if_pos hloc] at h
    cases h
  · rw [if_neg hloc] at h
    obtain ⟨rfl, -⟩ := Prod.mk.inj h
    rfl

lemma comeHome_remote (hl : r.desk.Linked) {target : ScreenId} (ha : r.activeRemote = some target)
    (now : Instant) (source : ScreenId) (edge : Edge) :
    (r.comeHome now source target edge).1.activeRemote = none := by
  obtain ⟨screen, hs⟩ := hl.localIn
  unfold comeHome
  rw [restoreLocalAtEdge_eq now edge ha hs]
  rfl

/-- **What one routed event does to control.** -/
inductive ControlStep (r r' : EdgeRouter) : RoutedEvent → Prop
  | stays (event : InputEvent) (h : r.activeRemote = none) (h' : r'.activeRemote = none) :
    ControlStep r r' (.localEvent event)
  | drives (target : ScreenId) (event : InputEvent) (h : r.activeRemote = some target)
    (h' : r'.activeRemote = some target) : ControlStep r r' (.forward target event)
  | returns (source : ScreenId) (edge : Edge) (entryEdge : Option Edge) (armed : Bool)
    (h : r.activeRemote ≠ none) (h' : r'.activeRemote = none) :
    ControlStep r r' (.returnHome source edge entryEdge armed)
  | leaves (source target : ScreenId) (edge : Edge) (targetX targetY : ℕ) (event : InputEvent)
    (h : r.activeRemote = none) (h' : r'.activeRemote = some target) :
    ControlStep r r' (.handoff source target edge targetX targetY event)

lemma LocalStep.control {now : Instant} {dx dy : Int32} {screen : Screen}
    {p : EdgeRouter × RoutedEvent} (h : r.LocalStep now dx dy screen p)
    (hn : r.activeRemote = none) : r.ControlStep p.1 p.2 := by
  cases h with
  | inside he => exact .stays _ hn (by rw [moveInside_eq]; exact hn)
  | held edge reason he hg => exact .stays _ hn hn
  | saving edge target he hg hb => exact .stays _ hn (by rw [creditPush_eq]; exact hn)
  | crossing edge target targetScreen he hg hb ht => exact .leaves _ _ _ _ _ _ hn rfl

lemma DriveStep.control {now : Instant} {target : ScreenId} {dx dy : Int32} {remote : Screen}
    {p : EdgeRouter × RoutedEvent} (h : r.DriveStep now target dx dy remote p)
    (hl : r.desk.Linked) (ha : r.activeRemote = some target) : r.ControlStep p.1 p.2 := by
  have hne : r.activeRemote ≠ none := by simp [ha]
  cases h with
  | roams he => exact .drives _ _ ha (by rw [roam_eq]; exact ha)
  | returns edge he hf hd hr =>
    refine .returns _ _ _ _ hne (comeHome_remote ?_ ?_ _ _ _)
    · rw [creditReturn_eq]
      exact hl
    · rw [creditReturn_eq]
      exact ha
  | builds edge he hf hd hr => exact .drives _ _ ha (by rw [creditReturn_eq]; exact ha)
  | escapes edge he hf hd hr =>
    exact .returns _ _ _ _ hne (comeHome_remote (r := r.shove _) hl ha _ _ _)
  | shoves edge he hf hd hr => exact .drives _ _ ha ha
  | clamps edge he hf => exact .drives _ _ ha ha

lemma route_control (hl : r.desk.Linked) {now : Instant} {event : InputEvent}
    {reply : RoutedEvent} (h : r.route now event = some (r', reply)) : r.ControlStep r' reply := by
  rcases ha : r.activeRemote with _ | target
  · rcases route_local_cases hl ha h with ⟨-, rfl, rfl⟩ | ⟨dx, dy, screen, -, -, -, hstep⟩
    · exact .stays _ ha ha
    · exact hstep.control ha
  · rcases route_driving_cases hl ha h with ⟨-, rfl, rfl⟩ | ⟨dx, dy, remote, -, -, hstep⟩
    · exact .drives _ _ ha ha
    · exact hstep.control hl ha

end EdgeRouter

lemma resyncHomeToTruth_keeps (router : EdgeRouter) (os : PlatformAnswers) :
    router.Keeps (resyncHomeToTruth router os) := by
  unfold resyncHomeToTruth
  split
  · exact router.resyncIfLocal_keeps _ _
  · exact .refl _

lemma parkInside_keeps (router : EdgeRouter) (edge : Edge) :
    router.Keeps (parkInside router edge) := by
  cases edge <;> exact router.placeLocalCursor_keeps _ _

lemma adoptPeerGeometry_keeps (router : EdgeRouter) (fingerprint : Option String)
    (peerGeometry : Option ScreenGeometry) :
    router.Keeps (adoptPeerGeometry router fingerprint peerGeometry) := by
  unfold adoptPeerGeometry
  split
  · split_ifs
    · exact .refl _
    · exact router.adoptPeerScreenSize_keeps _ _ _
  · exact .refl _

namespace DriveLoop

/-! ### The invariant -/

/-- The stream of a session was opened. -/
def Opened (streams : ℕ) (held : Option TopologySession) : Prop :=
  ∀ session, held = some session → session.stream < streams

structure Agree (router : EdgeRouter) (active parked : Option TopologySession)
    (suppressionRequested : Bool) (streams : ℕ) : Prop where
  linked : router.desk.Linked
  driven : ∀ session, active = some session → router.activeRemote = some session.target
  suppressed : suppressionRequested = active.isSome
  apart : ∀ session other, active = some session → parked = some other →
    session.stream ≠ other.stream
  opened : Opened streams active
  parkOpened : Opened streams parked

abbrev Consistent (s : DriveLoop) : Prop :=
  Agree s.router s.active s.parked s.suppressionRequested s.streams

section

variable {router router' : EdgeRouter} {active parked : Option TopologySession}
  {held held' : TopologySession} {suppressionRequested : Bool} {streams : ℕ}

lemma opened_none : Opened streams none := by rintro _ ⟨⟩

lemma Agree.keeps (h : Agree router active parked suppressionRequested streams)
    (hr : router.Keeps router') : Agree router' active parked suppressionRequested streams :=
  ⟨hr.linked h.linked, fun session hs => hr.remote.trans (h.driven session hs), h.suppressed,
    h.apart, h.opened, h.parkOpened⟩

/-- Losing the park keeps all of it. -/
lemma Agree.unpark (h : Agree router active parked suppressionRequested streams) :
    Agree router active none suppressionRequested streams where
  linked := h.linked
  driven := h.driven
  suppressed := h.suppressed
  apart := by rintro _ _ - ⟨⟩
  opened := h.opened
  parkOpened := opened_none

/-- Without a drive there is little to hold. -/
lemma Agree.idle (hl : router.desk.Linked) (hp : Opened streams parked) :
    Agree router none parked false streams where
  linked := hl
  driven := by rintro _ ⟨⟩
  suppressed := rfl
  apart := by rintro _ _ ⟨⟩
  opened := opened_none
  parkOpened := hp

/-- At home the router may go anywhere. -/
lemma Agree.reroute (h : Agree router active parked suppressionRequested streams)
    (ha : active = none) (hl : router'.desk.Linked) :
    Agree router' active parked suppressionRequested streams := by
  subst ha
  obtain rfl := h.suppressed
  exact .idle hl h.parkOpened

/-- A session may learn things, and stays on its stream. -/
lemma Agree.session (h : Agree router (some held) parked suppressionRequested streams)
    (hs : held'.stream = held.stream) (ht : held'.target = held.target) :
    Agree router (some held') parked suppressionRequested streams where
  linked := h.linked
  driven := by
    rintro _ ⟨⟩
    exact ht ▸ h.driven held rfl
  suppressed := h.suppressed
  apart := by
    rintro _ other ⟨⟩ hother
    exact hs ▸ h.apart held other rfl hother
  opened := by
    rintro _ ⟨⟩
    exact hs ▸ h.opened held rfl
  parkOpened := h.parkOpened

/-- A drive opens on a stream that nothing else holds. -/
lemma Agree.drive (hl : router.desk.Linked) (ha : router.activeRemote = some held.target)
    (hn : held.stream < streams) : Agree router (some held) none true streams where
  linked := hl
  driven := by
    rintro _ ⟨⟩
    exact ha
  suppressed := rfl
  apart := by rintro _ _ - ⟨⟩
  opened := by
    rintro _ ⟨⟩
    exact hn
  parkOpened := opened_none

end

variable {s s' : DriveLoop} {os : PlatformAnswers} {net : NetworkAnswers}

/-! ### Coming home -/

lemma restoreHome_linked (hl : s.router.desk.Linked) (target : ScreenId) :
    (s.restoreHome os target).router.desk.Linked :=
  (resyncHomeToTruth_keeps _ os).linked (EdgeRouter.op_linked hl (.restoreLocal target) rfl)

lemma restoreHome_remote (hl : s.router.desk.Linked) {target : ScreenId}
    (ha : s.router.activeRemote = some target) :
    (s.restoreHome os target).router.activeRemote = none :=
  (resyncHomeToTruth_keeps _ os).remote.trans (EdgeRouter.restoreLocal_remote hl ha)

lemma restoreHome_consistent (h : s.Consistent) (ha : s.active = none) (target : ScreenId) :
    (s.restoreHome os target).Consistent :=
  h.reroute ha (restoreHome_linked h.linked target)

lemma endEpisode_consistent (hl : s.router.desk.Linked) (hp : Opened s.streams s.parked)
    (target : ScreenId) : (s.endEpisode os target).Consistent :=
  .idle (restoreHome_linked hl target) hp

lemma loseEpisode_consistent (hl : s.router.desk.Linked) (target : ScreenId) :
    (s.loseEpisode os target).Consistent := .idle (restoreHome_linked hl target) opened_none

lemma refuse_consistent (h : s.Consistent) (ha : s.active = none) (target : ScreenId)
    (edge : Edge) : (s.refuse os target edge).Consistent :=
  (restoreHome_consistent h ha target).keeps (parkInside_keeps _ edge)

lemma yieldDriveToInbound_consistent (h : s.Consistent) :
    (s.yieldDriveToInbound os).Consistent := by
  unfold yieldDriveToInbound
  split
  · exact h
  next session hsession =>
  refine Agree.idle ?_ ?_
  · exact (EdgeRouter.setLocalCursorPosition_keeps _ _ _).linked (restoreHome_linked h.linked _)
  · rintro _ ⟨⟩
    exact h.opened session hsession

lemma parkEpisode_consistent (hl : s.router.desk.Linked) (ho : Opened s.streams s.active)
    (hp : Opened s.streams s.parked) : (s.parkEpisode os).Consistent := by
  refine Agree.idle hl ?_
  intro session hsession
  rcases Option.or_eq_some_iff.mp hsession with ha | ⟨-, hpark⟩
  · exact ho session ha
  · exact hp session hpark

/-! ### Opening a drive -/

/-- A stream that resumes is the parked one. -/
lemma resumeParked_some {target : ScreenId} {eventBarrier : UInt64}
    {firstEvent : Option InputEvent} {session : TopologySession}
    (h : s.resumeParked os net target eventBarrier firstEvent = some session) :
    ∃ parked, s.parked = some parked ∧ session.stream = parked.stream ∧
      session.target = target := by
  obtain ⟨parked, hparked, rfl⟩ := Option.map_eq_some_iff.mp h
  obtain ⟨htaken, -⟩ := Option.filter_eq_some_iff.mp hparked
  obtain ⟨hs, ht⟩ := Option.filter_eq_some_iff.mp htaken
  simp only [Bool.and_eq_true, decide_eq_true_eq] at ht
  exact ⟨parked, hs, rfl, ht.1.1.1⟩

/-- Both ways into a drive agree on the router, the suppression and the stream. -/
lemma drive_consistent {session : TopologySession} (hl : s.router.desk.Linked)
    (ha : s.router.activeRemote = some session.target) (hn : session.stream < s.streams) :
    ({ s with parked := none }.drive session).Consistent :=
  (Agree.drive hl ha hn).keeps (adoptPeerGeometry_keeps _ _ _)

lemma continueTo_consistent (h : s.Consistent) (ha : s.active = none) {target : ScreenId}
    (hr : s.router.activeRemote = some target) {firstEvent : Option InputEvent}
    (hc : s.continueTo os net target firstEvent = some s') : s'.Consistent := by
  unfold continueTo at hc
  split at hc
  · next session hsession =>
    obtain ⟨parked, hparked, hstream, rfl⟩ := resumeParked_some hsession
    obtain rfl := Option.some.inj hc
    exact drive_consistent h.linked hr (hstream ▸ h.parkOpened parked hparked)
  · split at hc
    · obtain rfl := Option.some.inj hc
      exact drive_consistent (s := { s with streams := s.streams + 1 }) h.linked hr
        (Nat.lt_succ_self _)
    · cases hc
    · obtain rfl := Option.some.inj hc
      exact restoreHome_consistent (s := { s with parked := none }) h.unpark ha target

lemma crossTo_consistent (h : s.Consistent) (ha : s.active = none) {target : ScreenId}
    (hr : s.router.activeRemote = some target) {eventId : UInt64} {edge : Edge}
    {event : InputEvent} (hc : s.crossTo os net eventId target edge event = some s') :
    s'.Consistent := by
  unfold crossTo at hc
  split at hc
  · next session hsession =>
    obtain ⟨parked, hparked, hstream, rfl⟩ := resumeParked_some hsession
    obtain rfl := Option.some.inj hc
    exact drive_consistent h.linked hr (hstream ▸ h.parkOpened parked hparked)
  · simp only at hc
    split_ifs at hc
    · obtain rfl := Option.some.inj hc
      exact refuse_consistent (s := { s with parked := none }) h.unpark ha target edge
    split at hc
    · obtain rfl := Option.some.inj hc
      exact drive_consistent (s := { s with streams := s.streams + 1 }) h.linked hr
        (Nat.lt_succ_self _)
    · cases hc
    · obtain rfl := Option.some.inj hc
      have hidle : Agree s.router s.active none false s.streams := by
        rw [ha]
        exact .idle h.linked opened_none
      exact refuse_consistent (s := { s with parked := none, suppressionRequested := false })
        hidle ha target edge

lemma handoff_consistent (h : s.Consistent) (ha : s.active = none) {target : ScreenId}
    (hr : s.router.activeRemote = some target) {eventId : UInt64} {source : ScreenId}
    {edge : Edge} {event : InputEvent}
    (hc : s.handoff os net eventId source target edge event = some s') : s'.Consistent := by
  unfold handoff at hc
  have hidle : ¬s.active.isSome = true := by simp [ha]
  rw [if_neg hidle] at hc
  split_ifs at hc
  · exact Option.some.inj hc ▸ refuse_consistent h ha target edge
  · exact Option.some.inj hc ▸ refuse_consistent h ha target edge
  · exact Option.some.inj hc ▸ refuse_consistent h ha target edge
  simp only at hc
  split at hc
  · next truthX truthY hveto =>
    obtain rfl := Option.some.inj hc
    have hhome : (s.restoreHome os target).Consistent := restoreHome_consistent h ha target
    have hresync := (s.restoreHome os target).router.resyncIfLocal_keeps truthX truthY
    refine hhome.keeps ?_
    simp only
    split_ifs
    · exact hresync.trans (parkInside_keeps _ edge)
    · exact hresync
  · exact crossTo_consistent h ha hr hc

/-! ### Signals -/

lemma redirect_consistent (h : s.Consistent) (ha : s.active = none) {handoff : RemoteHandoff}
    (hc : s.redirect os net handoff = some s') : s'.Consistent := by
  unfold redirect at hc
  split at hc
  · exact Option.some.inj hc ▸ h
  next target htarget =>
  by_cases hloc : target = s.router.localScreen
  · rw [if_pos hloc] at hc
    simp only at hc
    split at hc
    · cases hc
    · next router drives ht =>
      exact Option.some.inj hc ▸ h.reroute ha (EdgeRouter.handoffTo_linked h.linked ht)
  · rw [if_neg hloc] at hc
    simp only at hc
    split at hc
    · cases hc
    · next router ht =>
      exact Option.some.inj hc ▸ h.reroute ha (EdgeRouter.handoffTo_linked h.linked ht)
    · next router ht =>
      have hl : router.desk.Linked := EdgeRouter.handoffTo_linked h.linked ht
      exact continueTo_consistent (s := { s with router }) (h.reroute ha hl) ha
        (EdgeRouter.handoffTo_remote ht) hc

lemma peerHandoff_consistent (h : s.Consistent) {handoff : RemoteHandoff}
    (hc : s.peerHandoff os net handoff = some s') : s'.Consistent := by
  have hover : ({ s with active := none }.releaseSuppression.discard os).Consistent :=
    .idle h.linked h.parkOpened
  exact redirect_consistent hover rfl hc

lemma receive_consistent (h : s.Consistent) {signal : Option RemoteSignal}
    (hc : s.receive os net signal = some s') : s'.Consistent := by
  unfold receive at hc
  split at hc
  · next session hsession =>
    unfold activeSignal at hc
    split at hc
    · exact peerHandoff_consistent h hc
    · obtain rfl := Option.some.inj hc
      have hheld : Agree s.router (some session) s.parked s.suppressionRequested s.streams :=
        hsession ▸ h
      exact hheld.session rfl rfl
    · split_ifs at hc
      exact Option.some.inj hc ▸ h
    · exact Option.some.inj hc ▸ endEpisode_consistent h.linked h.parkOpened _
    · exact Option.some.inj hc ▸ endEpisode_consistent h.linked h.parkOpened _
  · next session hactive hsession =>
    unfold parkedSignal at hc
    split at hc
    · exact Option.some.inj hc ▸ h
    · obtain rfl := Option.some.inj hc
      have hopened : Opened s.streams (some { session with lastProgress := some os.now }) := by
        rintro _ ⟨⟩
        exact h.parkOpened session hsession
      refine ⟨h.linked, h.driven, h.suppressed, ?_, h.opened, hopened⟩
      rintro _ _ ha
      simp [hactive] at ha
    · split_ifs at hc
      exact Option.some.inj hc ▸ h
    · exact Option.some.inj hc ▸ h.unpark
    · exact Option.some.inj hc ▸ h.unpark
  · exact Option.some.inj hc ▸ h

/-! ### Captured events -/

lemma toggleLock_consistent (h : s.Consistent) : (s.toggleLock os).Consistent := by
  unfold toggleLock
  split_ifs
  · exact h.keeps (s.router.setLocked_keeps false)
  · rcases ha : s.active with _ | session
    · exact h.unpark.keeps (s.router.setLocked_keeps true)
    · have hend : (s.endEpisode os session.target).Consistent :=
        endEpisode_consistent h.linked h.parkOpened _
      exact hend.unpark.keeps (EdgeRouter.setLocked_keeps _ true)

/-- A drive goes on over its sends, or is lost to one of them. -/
lemma sendEach_consistent {session : TopologySession} (events : List InputEvent)
    (sends : ℕ → SendAnswer)
    (h : Agree s.router (some session) s.parked s.suppressionRequested s.streams) :
    (s.sendEach os session events sends).Consistent := by
  induction events generalizing s session sends with
  | nil => exact h
  | cons event events ih =>
    unfold sendEach
    simp only
    split
    · exact ih _ (h.session rfl rfl)
    · split
      · exact ih _ (h.session rfl rfl)
      · split
        · exact ih _ (h.session rfl rfl)
        · split
          · exact loseEpisode_consistent h.linked _
          · exact ih _ (h.session rfl rfl)
        · exact loseEpisode_consistent h.linked _

lemma forward_consistent (h : s.Consistent) {target : ScreenId} {event : InputEvent}
    (hc : s.forward os net target event = some s') : s'.Consistent := by
  unfold forward at hc
  split at hc
  · next ha => exact Option.some.inj hc ▸ restoreHome_consistent h ha target
  · next session ha =>
    split_ifs at hc
    obtain rfl := Option.some.inj hc
    have hsession : Agree s.router (some session) s.parked s.suppressionRequested s.streams :=
      ha ▸ h
    exact sendEach_consistent _ _ (hsession.session rfl rfl)

/-- **What the router does to control, the loop follows.** -/
lemma dispatch_consistent (h : s.Consistent) {router : EdgeRouter} {routed : RoutedEvent}
    (hl : router.desk.Linked) (hr : s.router.ControlStep router routed) {eventId : UInt64}
    (hc : ({ s with router } : DriveLoop).dispatch os net eventId routed = some s') :
    s'.Consistent := by
  have hidle : s.router.activeRemote = none → s.active = none := by
    intro hn
    rcases ha : s.active with _ | session
    · rfl
    · simp [h.driven session ha] at hn
  cases hr with
  | stays event hn hn' => exact Option.some.inj hc ▸ h.reroute (hidle hn) hl
  | drives target event ha ha' =>
    have hsame : ({ s with router } : DriveLoop).Consistent :=
      h.keeps ⟨fun _ => hl, ha'.trans ha.symm⟩
    exact forward_consistent hsame hc
  | returns source edge entryEdge armed hn hn' =>
    exact Option.some.inj hc ▸ parkEpisode_consistent hl h.opened h.parkOpened
  | leaves source target edge targetX targetY event hn ha' =>
    exact handoff_consistent (s := { s with router }) (h.reroute (hidle hn) hl) (hidle hn) ha' hc

lemma trackTruth_consistent (h : s.Consistent) (event : InputEvent) :
    (s.trackTruth os event).Consistent := by
  have hresync : (s.resyncTruth os).Consistent := by
    unfold resyncTruth
    split
    · refine h.keeps ?_
      simp only
      split
      · exact EdgeRouter.resyncIfLocal_keeps _ _ _
      · exact .refl _
    · exact h
  unfold trackTruth
  split
  · unfold recheckDims
    split
    · refine hresync.keeps ?_
      simp only
      split
      · split
        · exact EdgeRouter.adoptLocalScreenSize_keeps _ _ _
        · exact .refl _
      · exact .refl _
    · exact hresync
  · exact h

lemma handleTopologyEvent_consistent (h : s.Consistent) {captured : CapturedEvent}
    {reply : Option RoutedEvent}
    (hc : s.handleTopologyEvent os net captured = some (s', reply)) : s'.Consistent := by
  unfold handleTopologyEvent at hc
  have ht : (s.trackTruth os captured.event).Consistent := trackTruth_consistent h _
  simp only at hc
  split_ifs at hc
  · obtain ⟨rfl, -⟩ := Prod.mk.inj (Option.some.inj hc)
    exact toggleLock_consistent ht
  · obtain ⟨rfl, -⟩ := Prod.mk.inj (Option.some.inj hc)
    exact yieldDriveToInbound_consistent ht
  split at hc
  · cases hc
  · next router routed hroute =>
    obtain ⟨t, hd, hpair⟩ := Option.map_eq_some_iff.mp hc
    obtain ⟨rfl, -⟩ := Prod.mk.inj hpair
    exact dispatch_consistent ht (EdgeRouter.route_linked ht.linked hroute)
      (EdgeRouter.route_control ht.linked hroute) hd

/-! ### Ticks -/

lemma clipboardChange_consistent (h : s.Consistent) : (s.clipboardChange os net).Consistent := by
  unfold clipboardChange
  split
  · exact h
  · split_ifs
    · exact h
    · exact loseEpisode_consistent h.linked _

lemma applyLayout_eq (s : DriveLoop) : ∃ router pendingLayout,
    s.applyLayout = { s with router, pendingLayout } ∧ s.router.Keeps router := by
  unfold applyLayout
  split
  · exact ⟨s.router, s.pendingLayout, rfl, .refl _⟩
  · next layout _ =>
    have hkeeps := s.router.setLayout_keeps layout
    split
    · next router hset => exact ⟨router, _, rfl, by rwa [hset] at hkeeps⟩
    · next router _ hset => exact ⟨router, _, rfl, by rwa [hset] at hkeeps⟩

/-- New settings leave the drive alone. -/
lemma applyLiveTopologyConfig_eq (s : DriveLoop) (parsed : Option Config) :
    ∃ config router pendingLayout,
      s.applyLiveTopologyConfig parsed = { s with config, router, pendingLayout } ∧
        s.router.Keeps router := by
  unfold applyLiveTopologyConfig
  split
  · obtain ⟨router, pendingLayout, he, hkeeps⟩ := s.applyLayout_eq
    exact ⟨_, router, pendingLayout, he, hkeeps⟩
  · obtain ⟨router, pendingLayout, he, hkeeps⟩ := applyLayout_eq _
    refine ⟨_, router, pendingLayout, he, EdgeRouter.Keeps.trans ?_ hkeeps⟩
    simp only
    split_ifs
    · exact .refl _
    · exact EdgeRouter.setEdgeMode_keeps _ _
    · exact EdgeRouter.setDoubleStyle_keeps _ _
    · exact (EdgeRouter.setEdgeMode_keeps _ _).trans (EdgeRouter.setDoubleStyle_keeps _ _)

lemma probeInboundYield_consistent (h : s.Consistent) : (s.probeInboundYield os).Consistent := by
  unfold probeInboundYield
  simp only
  split
  · exact h
  · split
    · exact yieldDriveToInbound_consistent h
    · exact h

lemma probeDrive_consistent (h : s.Consistent) : (s.probeDrive os).Consistent := by
  unfold probeDrive
  split
  · simp only
    split
    · exact yieldDriveToInbound_consistent h
    · exact probeInboundYield_consistent h
  · exact h

lemma ping_consistent (h : s.Consistent) : (s.ping os net).Consistent := by
  unfold ping
  split
  · simp only
    split
    · exact .idle (restoreHome_linked h.linked _) opened_none
    · exact h
  · split
    · exact h
    · exact h.unpark

/-- The reaper finds nothing to release. -/
lemma reap_consistent (h : s.Consistent) : s.reap = s := by
  unfold reap
  split
  · next ha =>
    have hs : s.suppressionRequested = false := by
      rw [h.suppressed, Option.isNone_iff_eq_none.mp ha]
      rfl
    unfold releaseSuppression
    rw [← hs]
  · rfl

lemma keepAlive_consistent (h : s.Consistent) : (s.keepAlive os net).Consistent := by
  have hping : ((s.probeDrive os).ping os net).Consistent :=
    ping_consistent (probeDrive_consistent h)
  unfold keepAlive
  rwa [reap_consistent hping]

/-- **A turn keeps the loop consistent.** -/
theorem step_consistent {turn : Turn} {reply : Option RoutedEvent} (h : s.Consistent)
    (hc : s.step turn = some (s', reply)) : s'.Consistent := by
  unfold step at hc
  split at hc
  · obtain ⟨t, ht, hpair⟩ := Option.map_eq_some_iff.mp hc
    obtain ⟨rfl, -⟩ := Prod.mk.inj hpair
    exact receive_consistent h ht
  · split_ifs at hc
    · exact handleTopologyEvent_consistent h hc
    · obtain ⟨rfl, -⟩ := Prod.mk.inj (Option.some.inj hc)
      exact h
  · obtain ⟨rfl, -⟩ := Prod.mk.inj (Option.some.inj hc)
    exact clipboardChange_consistent h
  · obtain ⟨rfl, -⟩ := Prod.mk.inj (Option.some.inj hc)
    obtain ⟨config, router, pendingLayout, he, hkeeps⟩ := s.applyLiveTopologyConfig_eq _
    rw [he]
    exact h.keeps hkeeps
  · obtain ⟨rfl, -⟩ := Prod.mk.inj (Option.some.inj hc)
    exact probeDrive_consistent h
  · obtain ⟨rfl, -⟩ := Prod.mk.inj (Option.some.inj hc)
    exact keepAlive_consistent h

/-! ### A router without its session -/

/-- The router drives and no session does. -/
def Stranded (s : DriveLoop) : Prop := s.active = none ∧ s.router.activeRemote ≠ none

/-- Control is at home. -/
def Home (s : DriveLoop) : Prop :=
  s.active = none ∧ s.router.activeRemote = none ∧ s.router.currentScreen = s.router.localScreen

lemma trackTruth_stranded (h : s.Stranded) (event : InputEvent) : s.trackTruth os event = s := by
  have hsome : s.router.activeRemote.isNone = false := by
    simpa using Option.isSome_iff_ne_none.mpr h.2
  unfold trackTruth
  simp [hsome]

lemma drivenBack_idle (ha : s.active = none) : s.drivenBack os = false := by
  simp [drivenBack, ha]

lemma receive_stranded (h : s.Stranded) {signal : Option RemoteSignal}
    (hc : s.receive os net signal = some s') : s'.Stranded := by
  unfold receive at hc
  rcases hp : s.parked with _ | session
  · simp only [h.1, hp] at hc
    exact Option.some.inj hc ▸ h
  · simp only [h.1, hp] at hc
    unfold parkedSignal at hc
    split at hc
    · exact Option.some.inj hc ▸ h
    · exact Option.some.inj hc ▸ h
    · split_ifs at hc
      exact Option.some.inj hc ▸ h
    · exact Option.some.inj hc ▸ h
    · exact Option.some.inj hc ▸ h

lemma handleTopologyEvent_stranded (h : s.Stranded) {captured : CapturedEvent}
    (hc : s.handleTopologyEvent os net captured = some (s', none)) : s'.Stranded := by
  unfold handleTopologyEvent at hc
  simp only [trackTruth_stranded h, drivenBack_idle h.1, Bool.false_eq_true, if_false] at hc
  split at hc
  · obtain ⟨rfl, -⟩ := Prod.mk.inj (Option.some.inj hc)
    unfold toggleLock
    split_ifs
    · exact h
    · simp only [h.1]
      exact ⟨rfl, h.2⟩
  · split at hc
    · cases hc
    · obtain ⟨t, -, hpair⟩ := Option.map_eq_some_iff.mp hc
      cases (Prod.mk.inj hpair).2

lemma keepAlive_stranded (h : s.Stranded) : (s.keepAlive os net).Stranded := by
  have hping : (s.ping os net).Stranded := by
    unfold ping
    simp only [h.1]
    split_ifs
    · exact h
    · exact ⟨rfl, h.2⟩
  have hprobe : s.probeDrive os = s := by simp [probeDrive, h.1]
  unfold keepAlive reap
  rw [hprobe]
  split_ifs <;> exact hping

/-- **A turn that routes nothing leaves the router where it is.** -/
lemma step_stranded {turn : Turn} (h : s.Stranded) (hc : s.step turn = some (s', none)) :
    s'.Stranded := by
  unfold step at hc
  split at hc
  · obtain ⟨t, ht, hpair⟩ := Option.map_eq_some_iff.mp hc
    obtain ⟨rfl, -⟩ := Prod.mk.inj hpair
    exact receive_stranded h ht
  · split_ifs at hc
    · exact handleTopologyEvent_stranded h hc
    · obtain ⟨rfl, -⟩ := Prod.mk.inj (Option.some.inj hc)
      exact h
  · obtain ⟨rfl, -⟩ := Prod.mk.inj (Option.some.inj hc)
    unfold clipboardChange
    rw [h.1]
    exact h
  · obtain ⟨rfl, -⟩ := Prod.mk.inj (Option.some.inj hc)
    obtain ⟨config, router, pendingLayout, he, hkeeps⟩ := s.applyLiveTopologyConfig_eq _
    rw [he]
    exact ⟨h.1, hkeeps.remote ▸ h.2⟩
  · obtain ⟨rfl, -⟩ := Prod.mk.inj (Option.some.inj hc)
    have hprobe : s.probeDrive turn.os = s := by simp [probeDrive, h.1]
    rwa [hprobe]
  · obtain ⟨rfl, -⟩ := Prod.mk.inj (Option.some.inj hc)
    exact keepAlive_stranded h

/-- The turn's event gets to the router. -/
def Routes (s : DriveLoop) (turn : Turn) : Prop :=
  ∃ captured, turn.arm = .captured captured ∧ s.passesBarrier captured = true ∧
    isScrollLockPress captured.event = false

/-- **The next routed event brings a stranded router home.** -/
lemma step_home {turn : Turn} (hs : s.Consistent) (h : s.Stranded) (ht : s.Routes turn) :
    ∃ s' routed, s.step turn = some (s', some routed) ∧ s'.Home := by
  obtain ⟨captured, harm, hpass, hlock⟩ := ht
  obtain ⟨⟨router, routed⟩, hroute⟩ :=
    EdgeRouter.route_isSome hs.linked turn.os.now captured.event
  have hl : router.desk.Linked := EdgeRouter.route_linked hs.linked hroute
  have hstep : s.step turn =
      (({ s with router } : DriveLoop).dispatch turn.os turn.net captured.eventId routed).map
        fun s => (s, some routed) := by
    unfold step handleTopologyEvent
    rw [harm]
    simp only [hpass, if_true, trackTruth_stranded h, hlock, drivenBack_idle h.1,
      Bool.false_eq_true, if_false, hroute]
  have hhome : ∀ {t : DriveLoop}, t.router.desk.Linked → t.active = none →
      t.router.activeRemote = none → t.Home :=
    fun hl ha hr => ⟨ha, hr, hl.home_iff.mp hr⟩
  rcases EdgeRouter.route_control hs.linked hroute with
    ⟨event, hn, -⟩ | ⟨target, event, -, hr⟩ | ⟨source, edge, entryEdge, armed, -, hn⟩ |
    ⟨source, target, edge, targetX, targetY, event, hn, -⟩
  · exact absurd hn h.2
  · refine ⟨({ s with router } : DriveLoop).restoreHome turn.os target, .forward target event,
      ?_, ?_⟩
    · rw [hstep]
      simp only [dispatch, forward, h.1, Option.map_some]
    · exact hhome (restoreHome_linked hl target) h.1
        (restoreHome_remote (s := { s with router }) hl hr)
  · refine ⟨({ s with router } : DriveLoop).parkEpisode turn.os,
      .returnHome source edge entryEdge armed, by rw [hstep]; rfl, ?_⟩
    exact hhome hl rfl hn
  · exact absurd hn h.2

/-! ### Runs -/

lemma startRouter_linked {config : Config} {link : Option String} {router : EdgeRouter}
    (h : startRouter config link os = some router) : router.desk.Linked := by
  unfold startRouter at h
  simp only at h
  split at h
  · cases h
  next new hnew =>
  split_ifs at h
  obtain rfl := Option.some.inj h
  have hset := EdgeRouter.op_linked (EdgeRouter.op_linked (EdgeRouter.new_ok hnew).2.linked
    (.setReturnHold 0) rfl) (.setHandoffGrace (Duration.fromMillis 40)) rfl
  refine (EdgeRouter.setDoubleStyle_keeps _ _).linked ((EdgeRouter.setEdgeMode_keeps _ _).linked ?_)
  rcases os.cursor .seed with _ | ⟨x, y⟩
  · rcases os.screenSize with _ | ⟨width, height⟩
    · exact hset
    · exact (EdgeRouter.adoptLocalScreenSize_keeps _ _ _).linked hset
  · refine (EdgeRouter.setLocalCursorPosition_keeps _ _ _).linked ?_
    rcases os.screenSize with _ | ⟨width, height⟩
    · exact hset
    · exact (EdgeRouter.adoptLocalScreenSize_keeps _ _ _).linked hset

lemma prewarm_opened (router : EdgeRouter) (link : Option String)
    (capabilities : Option SessionCapabilities) : Opened 1 (prewarm router link capabilities) := by
  intro session hsession
  unfold prewarm at hsession
  split at hsession
  · cases hsession
  split at hsession
  · cases hsession
  · obtain ⟨_, -, rfl⟩ := Option.map_eq_some_iff.mp hsession
    exact Nat.zero_lt_one

lemma start_consistent {config : Config} {link : Option String}
    {capabilities : Option SessionCapabilities} (h : start config link os capabilities = some s) :
    s.Consistent := by
  obtain ⟨router, hrouter, rfl⟩ := Option.map_eq_some_iff.mp h
  exact .idle (startRouter_linked hrouter) (prewarm_opened router link capabilities)

variable {config : Config} {link : Option String} {capabilities : Option SessionCapabilities}
  {turns : List Turn} {replies : List (Option RoutedEvent)}

lemma run_consistent (h : s.Consistent) (hr : Run.run step s turns = some (s', replies)) :
    s'.Consistent :=
  Run.invariant_run (I := fun s => s.Consistent)
    (fun _ _ _ _ hs hstep => step_consistent hs hstep) h hr

/-- However long nothing is routed, a stranded router waits. -/
lemma run_stranded (h : s.Stranded) (hr : Run.run step s turns = some (s', replies))
    (hn : ∀ reply ∈ replies, reply = none) : s'.Stranded := by
  induction turns generalizing s replies with
  | nil =>
    obtain ⟨rfl, -⟩ := Prod.mk.inj (Option.some.inj hr)
    exact h
  | cons turn turns ih =>
    obtain ⟨t, reply, replies, hstep, hrest, rfl⟩ := Run.run_cons_some.mp hr
    obtain rfl := hn reply List.mem_cons_self
    exact ih (step_stranded h hstep) hrest fun r hr => hn r (List.mem_cons_of_mem _ hr)

/-- **The drive loop is consistent** after any turns: a session is the one the router drives, input
is suppressed exactly while there is one, no stream is both driven and parked, and a router that
drives without a session comes home with the next event routed. -/
theorem drive_loop_consistent {s₀ : DriveLoop} (hs : start config link os capabilities = some s₀)
    (hr : Run.run step s₀ turns = some (s, replies)) :
    (∀ session, s.active = some session → s.router.activeRemote = some session.target) ∧
      (s.suppressionRequested = true ↔ s.active.isSome = true) ∧
      (∀ session other, s.active = some session → s.parked = some other →
        session.stream ≠ other.stream) ∧
      (s.Stranded → ∀ quiet t silence, Run.run step s quiet = some (t, silence) →
        (∀ reply ∈ silence, reply = none) → ∀ turn, t.Routes turn →
          ∃ t' routed, t.step turn = some (t', some routed) ∧ t'.Home) := by
  have h : s.Consistent := run_consistent (start_consistent hs) hr
  refine ⟨h.driven, by rw [h.suppressed], h.apart, ?_⟩
  intro hstranded quiet t silence hquiet hsilence turn hturn
  exact step_home (run_consistent h hquiet) (run_stranded hstranded hquiet hsilence) hturn

/-! A crossing, a handoff to a screen that is not there, and a key. -/

def deskConfig : Config where
  deviceName := "desk"
  listenPort := 42110
  mode := .bidirectional
  transport := .udp
  edgeMode := .double
  layout := EdgeRouter.twoScreens 1 0 1280 800
  allowLockScreenControl := false
  autoConnectAddress := none
  clipboardEnabled := true
  clipboardMaxMb := 2
  reverseScroll := false
  autoDiscover := true
  doubleEdgeStyle := .mirror

/-- A platform that shows the pointer where the loop starts, and then no more. -/
def deskOs : PlatformAnswers where
  now := 0
  later := 0
  cursor read := if read = .seed then some (1800, 500) else none
  screenSize := none
  desktopReceivesInput := true
  lastEventId := 0
  openEventId := 0
  pressedKeys := []
  inboundWhileDriving := 0
  inbound := ⟨∅, []⟩

/-- A network that lets every dial and every write through. -/
def deskNet : NetworkAnswers where
  associationClosed := false
  queued := .quiet
  pong := true
  resumes := true
  dial := .opened ⟨true, true, true, false, none⟩
  sends _ := ⟨false, .ok true, 0⟩
  writes := true

def deskTurn (arm : DriveArm) : Turn := ⟨deskOs, deskNet, arm⟩

def deskTurns : List Turn :=
  [deskTurn (.captured ⟨.mouseMove 100 0, 1⟩), deskTurn (.captured ⟨.mouseMove 60 0, 2⟩),
    deskTurn (.signal (some (.handoff ⟨3, "ghost", 0, 0, 0, 0, none⟩)))]

def deskKey : Turn := deskTurn (.captured ⟨.key ⟨4, true, false⟩, 3⟩)

theorem stranded_router_comes_home : ∃ s₀ s replies,
    start deskConfig (some "peer") deskOs none = some s₀ ∧
      Run.run step s₀ deskTurns = some (s, replies) ∧ s.Stranded ∧
        ∃ t routed, s.step deskKey = some (t, some routed) ∧ t.Home := by
  have hstart : ∃ s₀, start deskConfig (some "peer") deskOs none = some s₀ := ⟨_, rfl⟩
  obtain ⟨s₀, hs⟩ := hstart
  have hrun : ∃ s replies, Run.run step s₀ deskTurns = some (s, replies) ∧ s.active = none ∧
      s.router.activeRemote = some ⟨2⟩ ∧ s.discardedEventBarrier = 0 := by
    obtain rfl := Option.some.inj hs
    exact ⟨_, _, rfl, rfl, rfl, rfl⟩
  obtain ⟨s, replies, hr, ha, hremote, hbarrier⟩ := hrun
  have hstranded : s.Stranded := ⟨ha, by simp [hremote]⟩
  have hpass : s.passesBarrier ⟨.key ⟨4, true, false⟩, 3⟩ = true := by
    unfold passesBarrier
    rw [hbarrier, ha]
    decide
  exact ⟨s₀, s, replies, hs, hr, hstranded,
    (drive_loop_consistent hs hr).2.2.2 hstranded [] s [] rfl (by simp) deskKey
      ⟨_, rfl, hpass, rfl⟩⟩

end DriveLoop

end TheKvm

import TheKvm.Daemon.InboundSessions
import TheKvm.Protocol.Udp

/-!
The presence of the desktop app, and the sessions that are to go with it.

A Hello is turned away while no app is there. The janitor looks every two seconds, and as it sees
the app gone it hangs up what is listed then. An episode that was let in before may register later.
-/

namespace TheKvm

structure PresenceRecord where
  id : ℕ
  lastSeen : Instant

/-- `PRESENCE_TTL`, in milliseconds. -/
def presenceTtl : ℕ := 12000

/-- The slot of the presence lease, and the poll that stands in for it. -/
structure Presence where
  slot : Option PresenceRecord
  nextId : ℕ
  leaseSeen : Bool
  lastUiContact : Option Instant

namespace Presence

def empty : Presence := ⟨none, 1, false, none⟩

def presenceFresh (record : Option PresenceRecord) (now : Instant) : Bool :=
  record.any fun record => now - record.lastSeen < presenceTtl

/-- Without any lease ever seen, a recent poll counts. -/
def legacyPresenceFresh (contact : Option Instant) (leaseSeen : Bool) (now : Instant) : Bool :=
  !leaseSeen && contact.any fun at_ => now - at_ < presenceTtl

def uiPresent (p : Presence) (now : Instant) : Bool :=
  presenceFresh p.slot now || legacyPresenceFresh p.lastUiContact p.leaseSeen now

def noteUiContact (p : Presence) (now : Instant) : Presence := { p with lastUiContact := some now }

def presenceBegin (p : Presence) (now : Instant) : Presence × ℕ :=
  ({ p with slot := some ⟨p.nextId, now⟩, nextId := p.nextId + 1, leaseSeen := true }, p.nextId)

/-- `false` means that a newer lease has replaced this one. -/
def presenceTouch (p : Presence) (now : Instant) (id : ℕ) : Presence × Bool :=
  if p.slot.any fun record => record.id = id then ({ p with slot := some ⟨id, now⟩ }, true)
  else (p, false)

/-- `true` when this was the live lease. -/
def presenceEnd (p : Presence) (id : ℕ) : Presence × Bool :=
  if p.slot.any fun record => record.id = id then ({ p with slot := none }, true) else (p, false)

end Presence

/-- A daemon with the app's presence, its sessions, and the hang-ups that are under way. -/
structure AttendedDaemon where
  presence : Presence
  hub : LinkHub
  ended : EndedLinks
  /-- Episodes that passed the gates of their Hello and have not registered. -/
  admitted : List LinkView
  /-- What each `on_ui_gone` of a lease connection has still to tear down. -/
  hangUps : List (List LinkView)
  wasPresent : Bool
  /-- What the janitor has still to tear down. -/
  sweep : List LinkView
  /-- How many sessions had registered by the janitor's last look. -/
  seen : ℕ

namespace AttendedDaemon

def start : AttendedDaemon := ⟨.empty, .empty, .fresh, [], [], false, [], 0⟩

inductive Op
  | contact (now : Instant)
  | presenceLease (now : Instant)
  | presencePing (now : Instant) (id : ℕ)
  /-- The lease connection is over: end of file, silence, a lost ping. -/
  | leaseOver (id : ℕ)
  /-- The other gates, trust and the modes, are `trusted`. -/
  | hello (now : Instant) (peer : Fingerprint) (nodeName address : String)
      (linkId : Option UInt64) (trusted : Bool)
  /-- An episode is declined, or there is no injector. -/
  | giveUp (episode : ℕ)
  | register (now : Instant) (episode : ℕ)
  | serve (id : ℕ)
  | turn (id : ℕ) (dropArm breaks : Bool)
  | dropGuard (id : ℕ)
  /-- Another hang-up: by the local user, or by the peer. -/
  | dropSession (fingerprintHex : String)
  | ban (linkId : UInt64) (byPeer : Bool)
  /-- A hang-up tears down one of its sessions; the order of the map is its own business. -/
  | hangUpNext (hangUp session : ℕ)
  | sweepNext (session : ℕ)
  | tick (now : Instant)

def forgetRecentInbound (l : InboundLinks) (fingerprintHex : String) : InboundLinks :=
  { l with seen := l.seen.filter fun record => record.link.fingerprintHex ≠ fingerprintHex }

/-- `teardown_link` of a listed session. -/
def teardownLink (d : AttendedDaemon) (link : LinkView) : AttendedDaemon :=
  let fingerprintHex := Text.toAsciiLowercase link.fingerprintHex
  let hub := (d.hub.dropInboundLink fingerprintHex).1
  { d with
    hub := { hub with links := forgetRecentInbound hub.links fingerprintHex }
    ended := d.ended.teardownLink link.linkId }

/-- The sessions `on_ui_gone` finds. -/
def listed (d : AttendedDaemon) : List LinkView := d.hub.links.live.map (·.link)

/-- The gates of a Hello that this is about: the ban of its epoch and the presence of the app. -/
def admits (d : AttendedDaemon) (now : Instant) (linkId : Option UInt64) : Bool :=
  !linkId.any d.ended.linkEnded && !(linkId.isSome && !d.presence.uiPresent now)

def step (d : AttendedDaemon) : Op → AttendedDaemon × Bool
  | .contact now => ({ d with presence := d.presence.noteUiContact now }, true)
  | .presenceLease now => ({ d with presence := (d.presence.presenceBegin now).1 }, true)
  | .presencePing now id =>
    ({ d with presence := (d.presence.presenceTouch now id).1 },
      (d.presence.presenceTouch now id).2)
  | .leaseOver id =>
    match d.presence.presenceEnd id with
    | (presence, true) => ({ d with presence, hangUps := d.hangUps ++ [d.listed] }, true)
    | (presence, false) => ({ d with presence }, false)
  | .hello now peer nodeName address linkId trusted =>
    if trusted && d.admits now linkId then
      ({ d with admitted := d.admitted ++ [⟨peer.hex, nodeName, address, linkId⟩] }, true)
    else (d, false)
  | .giveUp episode => ({ d with admitted := d.admitted.eraseIdx episode }, true)
  | .register now episode =>
    match d.admitted[episode]? with
    | none => (d, false)
    | some link =>
      ({ d with
          admitted := d.admitted.eraseIdx episode
          hub := d.hub.registerInboundLink now link }, true)
  | .serve id => ({ d with hub := d.hub.serve id }, true)
  | .turn id dropArm breaks => ({ d with hub := d.hub.turn id dropArm breaks }, true)
  | .dropGuard id => ({ d with hub := d.hub.dropGuard id }, true)
  | .dropSession fingerprintHex =>
    ({ d with hub := (d.hub.dropInboundLink fingerprintHex).1 },
      (d.hub.dropInboundLink fingerprintHex).2)
  | .ban linkId byPeer =>
    ({ d with ended := if byPeer then d.ended.peerEndLink linkId else d.ended.endLink linkId },
      true)
  | .hangUpNext hangUp session =>
    match d.hangUps[hangUp]? with
    | none => (d, false)
    | some sessions =>
      match sessions[session]? with
      | none => (d, false)
      | some link =>
        ({ d.teardownLink link with
            hangUps := d.hangUps.set hangUp (sessions.eraseIdx session) }, true)
  | .sweepNext session =>
    match d.sweep[session]? with
    | none => (d, false)
    | some link => ({ d.teardownLink link with sweep := d.sweep.eraseIdx session }, true)
  | .tick now =>
    -- The janitor looks again when its own hang-up is done.
    if d.sweep = [] then
      let present := d.presence.uiPresent now
      ({ d with
          wasPresent := present
          sweep := if d.wasPresent && !present then d.listed else []
          seen := d.hub.links.nextId }, present)
    else (d, false)

abbrev after (ops : List Op) : AttendedDaemon := Trace.final step start ops

/-- A look of the janitor that finds no app, after one that found none. -/
def StaysAway (d : AttendedDaemon) (now : Instant) : Prop :=
  d.sweep = [] ∧ d.wasPresent = false ∧ d.presence.uiPresent now = false

/-- **What goes with the app.** As the janitor finds no app for the second time, every session
with an epoch that had registered by the first has ended or has been told to drop. -/
def NoneOutlives (d : AttendedDaemon) : Op → Prop
  | .tick now => d.StaysAway now → ∀ s ∈ d.hub.sessions, s.id < d.seen → s.link.linkId.isSome →
      s.phase = .ended ∨ d.hub.armReady s = true
  | _ => True

/-- The condition on a step: no session with an epoch registers between two looks that both find
no app. -/
def NoneSlipsIn (d : AttendedDaemon) : Op → Prop
  | .tick now => d.StaysAway now → ∀ s ∈ d.hub.sessions, d.seen ≤ s.id → s.link.linkId = none
  | _ => True

variable {d : AttendedDaemon}

/-! ### One step -/

/-- Sessions and admitted episodes have lower-case fingerprints, and of the sessions that had
registered when the janitor found no app, each has ended, has been told to drop, or is still in
its hang-up. -/
structure Inv (d : AttendedDaemon) : Prop where
  hub : d.hub.Inv
  lower : ∀ s ∈ d.hub.sessions, Text.toAsciiLowercase s.link.fingerprintHex = s.link.fingerprintHex
  lowerAdmitted : ∀ link ∈ d.admitted,
    Text.toAsciiLowercase link.fingerprintHex = link.fingerprintHex
  seen : d.seen ≤ d.hub.links.nextId
  covered : d.wasPresent = false → ∀ s ∈ d.hub.sessions, s.id < d.seen → s.link.linkId.isSome →
    s.phase = .ended ∨ d.hub.armReady s = true ∨
      s.link.fingerprintHex ∈ d.sweep.map (·.fingerprintHex)

lemma inv_start : start.Inv where
  hub := LinkHub.inv_empty
  lower := by simp [start, LinkHub.empty]
  lowerAdmitted := by simp [start]
  seen := Nat.zero_le _
  covered := fun _ s _ hs => absurd hs (Nat.not_lt_zero _)

/-- A step that changes the hub and leaves alone what the janitor has seen. -/
lemma Inv.of_hub {d' : AttendedDaemon} (hi : d.Inv) (hhub : d'.hub.Inv)
    (he : LinkHub.Evolves d.hub d'.hub)
    (hlower : ∀ s ∈ d'.hub.sessions, d.hub.links.nextId ≤ s.id →
      Text.toAsciiLowercase s.link.fingerprintHex = s.link.fingerprintHex)
    (hadmitted : ∀ link ∈ d'.admitted,
      Text.toAsciiLowercase link.fingerprintHex = link.fingerprintHex)
    (hseen : d'.seen = d.seen) (hwas : d'.wasPresent = d.wasPresent)
    (hsweep : ∀ s ∈ d.hub.sessions, s.link.fingerprintHex ∈ d.sweep.map (·.fingerprintHex) →
      s.link.fingerprintHex ∈ d'.sweep.map (·.fingerprintHex) ∨ d'.hub.ReadyAt s.id) :
    d'.Inv where
  hub := hhub
  lower := by
    intro t ht
    rcases he.sessions t ht with ⟨s, hs, hst⟩ | hnew
    · rw [hst.link]
      exact hi.lower s hs
    · exact hlower t ht hnew
  lowerAdmitted := hadmitted
  seen := hseen ▸ hi.seen.trans he.nextId
  covered := by
    intro hgone t ht hid hepoch
    rw [hwas] at hgone
    rw [hseen] at hid
    rcases he.sessions t ht with ⟨s, hs, hst⟩ | hnew
    · rw [hst.link] at hepoch ⊢
      rcases hi.covered hgone s hs (hst.id ▸ hid) hepoch with hended | hready | hpending
      · exact Or.inl (hst.ended hended)
      · have hat : d.hub.ReadyAt s.id := by
          intro s' hs' heq
          rwa [hi.hub.unique hs' hs heq]
        exact Or.inr (Or.inl (hat.evolves (hi.hub.lt hs) he t ht hst.id))
      · rcases hsweep s hs hpending with hstill | hat
        · exact Or.inr (Or.inr hstill)
        · exact Or.inr (Or.inl (hat t ht hst.id))
    · exact absurd (lt_of_lt_of_le hid hi.seen) (not_lt.mpr hnew)

/-- A step of the sessions in which none registers. -/
lemma Inv.of_sessions {hub : LinkHub} (hi : d.Inv) (hhub : hub.Inv)
    (he : LinkHub.Evolves d.hub hub) (hnext : hub.links.nextId = d.hub.links.nextId) :
    ({ d with hub } : AttendedDaemon).Inv :=
  hi.of_hub hhub he (fun _ ht hnew => absurd (hhub.lt ht) (not_lt.mpr (hnext ▸ hnew)))
    hi.lowerAdmitted rfl rfl fun _ _ hpending => Or.inl hpending

/-- What a daemon remembers of past links does not concern the hub. -/
lemma inv_forget {h : LinkHub} (hi : h.Inv) (fingerprintHex : String) :
    LinkHub.Inv { h with links := forgetRecentInbound h.links fingerprintHex } :=
  ⟨hi.ids, hi.keys, hi.hosts⟩

lemma evolves_forget {h h' : LinkHub} (he : LinkHub.Evolves h h') (fingerprintHex : String) :
    LinkHub.Evolves h { h' with links := forgetRecentInbound h'.links fingerprintHex } :=
  ⟨he.nextId, he.sessions, he.listed⟩

/-- A teardown leaves the sessions of its peer with their drop arms ready, and keeps what is
covered of the others. -/
lemma Inv.teardown (hi : d.Inv) (link : LinkView) (hangUps : List (List LinkView))
    (sweep : List LinkView)
    (hsweep : ∀ fingerprintHex ∈ d.sweep.map (·.fingerprintHex),
      fingerprintHex ∈ sweep.map (·.fingerprintHex) ∨ fingerprintHex = link.fingerprintHex) :
    ({ d.teardownLink link with hangUps, sweep } : AttendedDaemon).Inv := by
  have he := evolves_forget
    (LinkHub.evolves_dropInboundLink d.hub (Text.toAsciiLowercase link.fingerprintHex))
    (Text.toAsciiLowercase link.fingerprintHex)
  have hhub := inv_forget (hi.hub.dropInboundLink (Text.toAsciiLowercase link.fingerprintHex))
    (Text.toAsciiLowercase link.fingerprintHex)
  refine hi.of_hub hhub he (fun t ht hnew => ?_) hi.lowerAdmitted rfl rfl ?_
  · have hlt := hhub.lt ht
    simp only [forgetRecentInbound, LinkHub.dropInboundLink_links] at hlt
    exact absurd hlt (not_lt.mpr hnew)
  · intro s hs hpending
    rcases hsweep _ hpending with hstill | heq
    · exact Or.inl hstill
    · right
      have hat := hi.hub.readyAt_of_dropped hs
      rw [← hi.lower s hs, heq] at hat
      exact hat

/-- What is neither ready to drop nor over is listed. -/
lemma mem_listed (hi : d.hub.Inv) {s : InboundSession} (hs : s ∈ d.hub.sessions)
    (hready : d.hub.armReady s = false) :
    s.link.fingerprintHex ∈ d.listed.map (·.fingerprintHex) := by
  have hlisted : d.hub.listed s.id = true := by
    simp only [LinkHub.armReady, Bool.or_eq_false_iff, Bool.not_eq_false'] at hready
    exact hready.2
  obtain ⟨hmem, -⟩ := hi.entryOf_iff.mp (hi.entryOf_of_listed hs hlisted)
  exact List.mem_map.mpr ⟨s.link, List.mem_map.mpr ⟨_, hmem, rfl⟩, rfl⟩

/-- A look of the janitor covers what had registered. -/
lemma Inv.tick (hi : d.Inv) {now : Instant} (hslips : d.NoneSlipsIn (.tick now)) :
    (d.step (.tick now)).1.Inv := by
  by_cases hidle : d.sweep = []
  swap
  · simp only [AttendedDaemon.step, if_neg hidle]
    exact hi
  simp only [AttendedDaemon.step, if_pos hidle]
  refine ⟨hi.hub, hi.lower, hi.lowerAdmitted, le_rfl, fun hgone s hs hid hepoch => ?_⟩
  simp only at hgone hs hid ⊢
  rw [hgone, Bool.not_false, Bool.and_true]
  rcases hready : d.hub.armReady s with _ | _
  swap
  · exact Or.inr (Or.inl rfl)
  rcases hwas : d.wasPresent with _ | _
  · -- The app was gone already, so the session is one that the last look saw.
    rcases lt_or_ge s.id d.seen with hold | hnew
    · rcases hi.covered hwas s hs hold hepoch with hended | hready' | hpending
      · exact Or.inl hended
      · rw [hready] at hready'
        cases hready'
      · simp [hidle] at hpending
    · have hnone := hslips ⟨hidle, hwas, hgone⟩ s hs hnew
      rw [hnone] at hepoch
      cases hepoch
  · exact Or.inr (Or.inr (mem_listed hi.hub hs hready))

/-- **One step keeps what is covered**, if no session slips in. -/
lemma Inv.step (hi : d.Inv) {op : Op} (hslips : d.NoneSlipsIn op) : (d.step op).1.Inv := by
  cases op with
  | contact now => exact ⟨hi.hub, hi.lower, hi.lowerAdmitted, hi.seen, hi.covered⟩
  | presenceLease now => exact ⟨hi.hub, hi.lower, hi.lowerAdmitted, hi.seen, hi.covered⟩
  | presencePing now id => exact ⟨hi.hub, hi.lower, hi.lowerAdmitted, hi.seen, hi.covered⟩
  | leaseOver id =>
    simp only [AttendedDaemon.step]
    split <;> exact ⟨hi.hub, hi.lower, hi.lowerAdmitted, hi.seen, hi.covered⟩
  | hello now peer nodeName address linkId trusted =>
    simp only [AttendedDaemon.step]
    split_ifs
    · refine ⟨hi.hub, hi.lower, fun link hlink => ?_, hi.seen, hi.covered⟩
      rcases List.mem_append.mp hlink with hold | hnew
      · exact hi.lowerAdmitted link hold
      · obtain rfl := List.mem_singleton.mp hnew
        exact Text.toAsciiLowercase_eq_self peer.digits
    · exact hi
  | giveUp episode =>
    exact ⟨hi.hub, hi.lower,
      fun link hlink => hi.lowerAdmitted link (List.mem_of_mem_eraseIdx hlink), hi.seen, hi.covered⟩
  | register now episode =>
    simp only [AttendedDaemon.step]
    rcases hepisode : d.admitted[episode]? with _ | link
    · exact hi
    refine hi.of_hub (hi.hub.register now link) (LinkHub.evolves_register d.hub now link)
      (fun t ht hnew => ?_) (fun link hlink => ?_) rfl rfl fun _ _ hpending => Or.inl hpending
    · rcases List.mem_append.mp ht with hold | hself
      · exact absurd (hi.hub.lt hold) (not_lt.mpr hnew)
      · obtain rfl := List.mem_singleton.mp hself
        exact hi.lowerAdmitted link (List.mem_of_getElem? hepisode)
    · exact hi.lowerAdmitted link (List.mem_of_mem_eraseIdx hlink)
  | serve id =>
    exact hi.of_sessions (hi.hub.step (.serve id)) (LinkHub.evolves_step _ (.serve id)) rfl
  | turn id dropArm breaks =>
    exact hi.of_sessions (hi.hub.step (.turn id dropArm breaks))
      (LinkHub.evolves_step _ (.turn id dropArm breaks)) rfl
  | dropGuard id =>
    exact hi.of_sessions (hi.hub.step (.dropGuard id)) (LinkHub.evolves_step _ (.dropGuard id))
      (LinkHub.dropGuard_nextId d.hub id)
  | dropSession fingerprintHex =>
    exact hi.of_sessions (hi.hub.dropInboundLink fingerprintHex)
      (LinkHub.evolves_dropInboundLink d.hub fingerprintHex) (by simp)
  | ban linkId byPeer => exact ⟨hi.hub, hi.lower, hi.lowerAdmitted, hi.seen, hi.covered⟩
  | hangUpNext hangUp session =>
    simp only [AttendedDaemon.step]
    split
    · exact hi
    · split
      · exact hi
      · exact hi.teardown _ _ d.sweep fun _ hpending => Or.inl hpending
  | sweepNext session =>
    simp only [AttendedDaemon.step]
    rcases hlink : d.sweep[session]? with _ | link
    · exact hi
    · refine hi.teardown link d.hangUps _ fun fingerprintHex hpending => ?_
      obtain ⟨other, hother, rfl⟩ := List.mem_map.mp hpending
      obtain ⟨i, hi⟩ := List.mem_iff_getElem?.mp hother
      by_cases heq : i = session
      · rw [heq, hlink] at hi
        exact Or.inr (congrArg LinkView.fingerprintHex (Option.some.inj hi).symm)
      · exact Or.inl (List.mem_map_of_mem (List.mem_eraseIdx_iff_getElem?.mpr ⟨i, heq, hi⟩))
  | tick now => exact hi.tick hslips

/-! ### Every run -/

/-- What is covered has been told to drop when the janitor looks again. -/
lemma Inv.noneOutlives (hi : d.Inv) (op : Op) : d.NoneOutlives op := by
  cases op with
  | tick now =>
    rintro ⟨hidle, hgone, -⟩ s hs hid hepoch
    rcases hi.covered hgone s hs hid hepoch with hended | hready | hpending
    · exact Or.inl hended
    · exact Or.inr hready
    · simp [hidle] at hpending
  | _ => trivial

/-- **No inbound link outlives the app.** In every run in which no session with an epoch registers
between two looks of the janitor that both find no app, every session with an epoch that
registered before the first of two such looks has ended or has been told to drop by the second. -/
theorem none_outlives_of_none_slips_in {ops : List Op}
    (h : Trace.Each (fun m => (after m).NoneSlipsIn) ops) :
    Trace.Each (fun m => (after m).NoneOutlives) ops := by
  intro m op hm
  have hi : (after m).Inv :=
    Trace.invariant (I := fun _ (d : AttendedDaemon) => d.Inv) inv_start
      (fun _ _ hi hslips => hi.step hslips) (h.earlier hm)
  exact hi.noneOutlives op

lemma length_visitor : (String.ofList (List.replicate 64 'b')).toList.length = 64 := by
  rw [String.toList_ofList, List.length_replicate]

lemma digits_visitor :
    ∀ c ∈ (String.ofList (List.replicate 64 'b')).toList, Text.isLowerHexdigit c = true := by
  intro c hc
  rw [String.toList_ofList] at hc
  rw [List.eq_of_mem_replicate hc]
  decide

/-- Another computer. -/
def visitor : Fingerprint where
  hex := String.ofList (List.replicate 64 'b')
  length := length_visitor
  digits := digits_visitor

/-- A session that is told to drop when the app goes. -/
def hungUp : List Op :=
  [.presenceLease 0, .hello 100 visitor "laptop" "10.0.0.2:42110" (some 7) true, .register 200 0,
    .tick 1000, .leaseOver 1, .tick 3000, .sweepNext 0]

theorem hung_up_with_app :
    (after hungUp).NoneOutlives (.tick 5000) ∧ (after hungUp).StaysAway 5000 := by
  refine ⟨@none_outlives_of_none_slips_in (hungUp ++ [.tick 5000]) ?_ hungUp (.tick 5000)
    (by rfl), ?_⟩
  · rw [Trace.each_iff_getElem]
    show ∀ i : Fin 8, _
    intro i
    match i with
    | 0 | 1 | 2 | 4 | 6 => trivial
    | 3 => exact fun haway => absurd haway.2.2 (by decide)
    | 5 => exact fun haway => absurd haway.2.1 (by decide)
    | 7 =>
      -- The one session was seen by the look before.
      show (after hungUp).StaysAway 5000 → _
      exact fun _ => by decide
  · exact ⟨rfl, rfl, by decide⟩

/-- The episode is let in before the app goes, and registers after the hang-up. -/
def registersLate : List Op :=
  [.presenceLease 0, .hello 100 visitor "laptop" "10.0.0.2:42110" (some 7) true, .tick 1000,
    .leaseOver 1, .tick 3000, .register 4000 0, .tick 5000]

/-- A session that registers between two looks at an absent app is not told to drop. -/
theorem late_session_outlives :
    ¬∀ ops : List Op, Trace.Each (fun m => (after m).NoneOutlives) ops := by
  intro h
  have hlast := h (registersLate ++ [.tick 7000]) registersLate (.tick 7000) (by rfl)
    ⟨rfl, rfl, by decide⟩
    ⟨0, ⟨visitor.hex, "laptop", "10.0.0.2:42110", some 7⟩, false, .registering⟩
    (by decide) (by decide) rfl
  rcases hlast with hended | hready
  · cases hended
  · revert hready
    decide

end AttendedDaemon

end TheKvm

import TheKvm.Daemon.UdpLinks
import TheKvm.Ui.Arrangement

/-!
Two machines that pair and link, and arrange each other.

No screen is placed by hand: the dialer arranges at pairing, the station at its first inbound link,
and either at its polls.
-/

namespace TheKvm

open Control

/-! ### Passes on two machines -/

inductive PairedMachine
  | dialer | station
  deriving DecidableEq

namespace PairedMachine

def other : PairedMachine → PairedMachine
  | dialer => station
  | station => dialer

@[simp] lemma other_other (m : PairedMachine) : m.other.other = m := by cases m <;> rfl

@[simp] lemma other_ne (m : PairedMachine) : m.other ≠ m := by cases m <;> decide

end PairedMachine

structure PairHost where
  windows : Bool
  fingerprint : Fingerprint

/-- What each of the two keeps. -/
def Pairing := PairedMachine → Arranging

namespace Pairing

inductive Op
  | ensureDefault (stationName : String) (a : Answered)
  | ensureStation (dialerName : String) (a : Answered)
  /-- The other has a name if it is in a book. -/
  | ensureLink (m : PairedMachine) (now : ℕ) (peerName : Option String) (a : Answered)
  | restart (m : PairedMachine)

variable (hosts : PairedMachine → PairHost)

def fingerprint (m : PairedMachine) : String := (hosts m).fingerprint.hex

def pass (s : Pairing) (m : PairedMachine) (a : Answered) (pass : Pass) : Pairing :=
  Function.update s m ((s m).pass (hosts m).windows (fingerprint hosts m) a pass)

def step (s : Pairing) : Op → Pairing × Unit
  | .ensureDefault stationName a =>
    (s.pass hosts .dialer a (.ensureDefault stationName (fingerprint hosts .station)), ())
  | .ensureStation dialerName a =>
    (s.pass hosts .station a (.ensureStation dialerName (fingerprint hosts .dialer)), ())
  | .ensureLink m now peerName a =>
    (s.pass hosts m a (.ensureLink now
      (peerName.map fun name => ⟨name, fingerprint hosts m.other, none⟩)), ())
  | .restart m => (Function.update s m (s m).restart, ())

/-- Nothing is arranged yet. -/
def start (configs : PairedMachine → Config) : Pairing :=
  fun m => ⟨{ configs m with layout := .empty }, 0⟩

def after (configs : PairedMachine → Config) (ops : List Op) : Pairing :=
  Trace.final (step hosts) (start configs) ops

/-- Where a machine has the other. -/
def side (s : Pairing) (m : PairedMachine) : Option Edge :=
  (s m).config.layout.sideOfPeer (fingerprint hosts m.other)

/-- If both have an arrangement, one has the other left and one right. -/
def Reciprocal (s : Pairing) : Prop :=
  (∀ m, (s m).config.layout.screens ≠ []) →
    s.side hosts .dialer = some .left ∧ s.side hosts .station = some .right ∨
      s.side hosts .dialer = some .right ∧ s.side hosts .station = some .left

/-- They have each other on opposite sides after a pass. -/
def StaysReciprocal (s : Pairing) (op : Op) : Prop := (s.step hosts op).1.Reciprocal hosts

/-! ### Sides -/

/-- The machine whose pass it is. -/
def Op.machine : Op → PairedMachine
  | .ensureDefault _ _ => .dialer
  | .ensureStation _ _ => .station
  | .ensureLink m _ _ _ => m
  | .restart m => m

/-- The side that a pass goes by: its role's, or the order of the fingerprints where the daemon
tells its own. -/
def Op.side : Op → Edge
  | .ensureStation _ _ => .left
  | .ensureLink m _ _ a =>
    if a.status ∧ ¬fingerprint hosts m < fingerprint hosts m.other then .left else .right
  | _ => .right

end Pairing

/-- The daemon answers what is asked while a pass is at work, and takes what it writes. -/
@[mk_iff]
structure Answered.Takes (a : Answered) (c : Config) : Prop where
  config : a.config = true
  current : a.current = true
  saved : a.saved = .ok ()
  valid : c.validate = .ok ()

namespace Pairing

variable (hosts : PairedMachine → PairHost)

/-- A pass writes: it finds no screens, or heals. -/
def Writes (s : Pairing) : Op → Prop
  | .ensureDefault _ a => (s .dialer).config.layout.screens = [] ∧ a.Takes (s .dialer).config
  | .ensureStation _ a => (s .station).config.layout.screens = [] ∧ a.Takes (s .station).config
  | .ensureLink m now peerName a => (s m).due now = true ∧ a.Takes (s m).config ∧
    ((s m).config.layout.screens = [] ∧ peerName.isSome = true ∨
      s.side hosts m = some .right ∧ Op.side hosts (.ensureLink m now peerName a) = .left)
  | .restart _ => False

/-- A pass that writes does not go by the side where the other machine has this one. -/
def Faces (s : Pairing) (op : Op) : Prop :=
  s.Writes hosts op → s.side hosts op.machine.other ≠ some (op.side hosts)

end Pairing

/-! ### The layouts of passes -/

namespace Layout

/-- What passes write: the peer left or right of this machine. -/
def besidePeer (selfName peerName : String) (peer : Fingerprint) (side : Edge) : Layout where
  screens :=
    [⟨selfScreenId, displayName selfName "This computer", 0, 0, defaultScreenWidth,
        defaultScreenHeight, none⟩,
      ⟨firstPeerScreenId, displayName peerName "Other computer",
        if side = .left then -1 else 1, 0, defaultScreenWidth, defaultScreenHeight,
        some peer.hex⟩]
  selfScreen := some selfScreenId

variable (selfName peerName : String) (peer : Fingerprint) (side : Edge)

lemma pairDefault_hex :
    pairDefault selfName peerName peer.hex = besidePeer selfName peerName peer .right := by
  rw [pairDefault, Text.toAsciiLowercase_eq_self peer.digits]
  rfl

lemma placePeer_besidePeer :
    (besidePeer selfName peerName peer .right).placePeer peer.hex .left =
      .ok (besidePeer selfName peerName peer .left) := by
  simp [placePeer, besidePeer, me, screen, Screen.beside, Screen.pinnedTo, modifyFirst,
    Screen.moveTo]

lemma sideOfPeer_besidePeer (h : side = .left ∨ side = .right) :
    (besidePeer selfName peerName peer side).sideOfPeer peer.hex = some side := by
  rcases h with rfl | rfl <;> simp [sideOfPeer, besidePeer, me, screen, Screen.pinnedTo]

lemma legacyAutoPeer_besidePeer :
    legacyAutoPeer (besidePeer selfName peerName peer side) =
      if side = .left then none else some peer.hex := by
  simp [legacyAutoPeer, besidePeer, me, screen]

lemma trim_displayName {name fallback : String} (h : Text.trim fallback ≠ "") :
    Text.trim (displayName name fallback) ≠ "" := by
  unfold displayName
  split_ifs with hname
  · exact h
  · rw [Text.trim_trim]
    simpa using hname

lemma validate_besidePeer : (besidePeer selfName peerName peer side).validate = .ok () := by
  have hself : Text.trim (displayName selfName "This computer") ≠ "" :=
    trim_displayName (by decide +kernel)
  have hpeer : Text.trim (displayName peerName "Other computer") ≠ "" :=
    trim_displayName (by decide +kernel)
  cases side <;>
    simp [validate, besidePeer, validateScreens, hself, hpeer, selfScreenId, firstPeerScreenId,
      defaultScreenWidth, defaultScreenHeight]

end Layout

/-! ### What is written -/

/-- Between arrangements that pass their checks, all that matters is whether the daemon takes the
write. -/
lemma writeArrangement_iff (windows : Bool) {a : Answered} {config : Config} {layout : Layout}
    (hold : config.layout.validate = .ok ()) (hnew : layout.validate = .ok ()) :
    (writeArrangement windows a config layout).2 = true ↔
      a.current = true ∧ a.saved = .ok () ∧ config.validate = .ok () := by
  have hrequest : (SettingsAction.writeArrangement layout).request config =
      some { writeBack config with layout := some layout } := by
    rw [SettingsAction.request, hnew]
    rfl
  have haccepted : ({ writeBack config with layout := some layout } : ConfigUpdate).Accepted
      config a.saved ↔ a.saved = .ok () ∧ config.validate = .ok () := by
    rw [ConfigUpdate.accepted_iff, Config.validate_iff, Config.validate_iff, and_comm (b := _ = _)]
    rcases haddress : config.autoConnectAddress with _ | address
    · simp [ConfigUpdate.refusal, ConfigUpdate.applied, writeBack, haddress, hold, hnew,
        Text.trim_trim]
    · by_cases hblank : Text.trim address = "" <;>
        simp [ConfigUpdate.refusal, ConfigUpdate.applied, writeBack, haddress, hold, hnew,
          Text.trim_trim, hblank]
  unfold writeArrangement SettingsAction.write
  rw [hrequest, ← haccepted]
  split_ifs with hcurrent
  · rw [and_iff_right hcurrent]
    by_cases h : ({ writeBack config with layout := some layout } : ConfigUpdate).Accepted
        config a.saved
    · simp only [setConfig_of_accepted windows h, true_iff]
      exact h
    · obtain ⟨message, hset⟩ := setConfig_of_not_accepted windows h
      simp only [hset, Bool.false_eq_true, false_iff]
      exact h
  · exact iff_of_false not_false fun h => hcurrent h.1

namespace Arranging

variable (windows : Bool) {myFingerprint : String} {s : Arranging} {a : Answered} {pass : Pass}

lemma pass_of_not_planned (h : s.plan myFingerprint a pass = none) :
    (s.pass windows myFingerprint a pass).config = s.config := by
  rw [Arranging.pass, h]

/-- What is planned is written if the daemon takes it. -/
lemma pass_of_planned {layout : Layout} (h : s.plan myFingerprint a pass = some layout)
    (hconfig : a.config = true) (hold : s.config.layout.validate = .ok ())
    (hnew : layout.validate = .ok ()) :
    a.Takes s.config ∧ (s.pass windows myFingerprint a pass).config.layout = layout ∨
      ¬a.Takes s.config ∧ (s.pass windows myFingerprint a pass).config = s.config := by
  have htakes : a.Takes s.config ↔ (writeArrangement windows a s.config layout).2 = true := by
    rw [writeArrangement_iff windows hold hnew, Answered.takes_iff, and_iff_right hconfig]
  rw [htakes, Arranging.pass, h]
  rcases writeArrangement_cases windows a s.config layout with
    hwritten | hwritten
  · exact Or.inl hwritten
  · refine Or.inr ⟨by rw [hwritten]; exact Bool.false_ne_true, congrArg Prod.fst hwritten⟩

end Arranging

/-! ### One pass -/

namespace Pairing

variable {hosts : PairedMachine → PairHost} {s : Pairing}

/-- A machine has no arrangement, or one that a pass wrote. -/
def Arranged (hosts : PairedMachine → PairHost) (s : Pairing) (m : PairedMachine) : Prop :=
  (s m).config.layout = .empty ∨ ∃ selfName peerName side, (side = .left ∨ side = .right) ∧
    (s m).config.layout = .besidePeer selfName peerName (hosts m.other).fingerprint side

lemma Arranged.valid {m : PairedMachine} (h : s.Arranged hosts m) :
    (s m).config.layout.validate = .ok () := by
  rcases h with h | ⟨selfName, peerName, side, -, h⟩ <;> rw [h]
  · rfl
  · exact Layout.validate_besidePeer ..

/-- What a pass of a machine did: it wrote the layout, or nothing. -/
def Wrote (hosts : PairedMachine → PairHost) (s : Pairing) (op : Op) (writes : Prop) : Prop :=
  writes ∧ (∃ selfName peerName, ((s.step hosts op).1 op.machine).config.layout =
      .besidePeer selfName peerName (hosts op.machine.other).fingerprint (op.side hosts)) ∨
    ¬writes ∧ ((s.step hosts op).1 op.machine).config = (s op.machine).config

/-- The machine of a pass, after it. -/
lemma pass_machine (m : PairedMachine) (a : Answered) (pass : Pass) :
    s.pass hosts m a pass m =
      (s m).pass (hosts m).windows (fingerprint hosts m) a pass :=
  Function.update_self ..

lemma update_other (m : PairedMachine) (r : Arranging) :
    Function.update s m r m.other = s m.other :=
  Function.update_of_ne (PairedMachine.other_ne m) r s

lemma step_other (op : Op) : (s.step hosts op).1 op.machine.other = s op.machine.other := by
  cases op with
  | ensureDefault | ensureStation | ensureLink | restart =>
    simp [step, Pairing.pass, Op.machine, update_other]

/-- What a pass may write is written if the daemon takes it. -/
lemma wrote_of_plan (may : Prop) [Decidable may] (selfName peerName : String) {op : Op}
    {a : Answered} {pass : Pass} {writes : Prop} (hs : s.Arranged hosts op.machine)
    (hstep : ((s.step hosts op).1 op.machine) = (s op.machine).pass (hosts op.machine).windows
      (fingerprint hosts op.machine) a pass)
    (hplan : (s op.machine).plan (fingerprint hosts op.machine) a pass =
      if may then
        some (.besidePeer selfName peerName (hosts op.machine.other).fingerprint (op.side hosts))
      else none)
    (hmay : may → a.config = true)
    (hwrites : writes ↔ may ∧ a.Takes (s op.machine).config) :
    s.Wrote hosts op writes := by
  rw [Wrote, hstep, hwrites]
  split_ifs at hplan with h
  · rcases Arranging.pass_of_planned (hosts op.machine).windows hplan (hmay h) hs.valid
      (Layout.validate_besidePeer ..) with ⟨htakes, hlayout⟩ | ⟨htakes, hconfig⟩
    · exact Or.inl ⟨⟨h, htakes⟩, selfName, peerName, hlayout⟩
    · exact Or.inr ⟨fun h => htakes h.2, hconfig⟩
  · exact Or.inr ⟨fun hand => h hand.1, Arranging.pass_of_not_planned _ hplan⟩

lemma wrote_default (hs : ∀ m, s.Arranged hosts m) (stationName : String) (a : Answered) :
    s.Wrote hosts (.ensureDefault stationName a)
      (s.Writes hosts (.ensureDefault stationName a)) := by
  refine wrote_of_plan (a.config = true ∧ (s .dialer).config.layout.screens = [])
    (s .dialer).config.deviceName stationName (hs .dialer)
    (pass_machine .dialer a (.ensureDefault stationName (fingerprint hosts .station))) ?_
    And.left ?_
  · simp only [Arranging.plan, ensureDefaultArrangement, fingerprint, Layout.pairDefault_hex,
      List.isEmpty_iff, ite_and]
    rfl
  · exact ⟨fun h => ⟨⟨h.2.config, h.1⟩, h.2⟩, fun h => ⟨h.1.2, h.2⟩⟩

lemma wrote_station (hs : ∀ m, s.Arranged hosts m) (dialerName : String) (a : Answered) :
    s.Wrote hosts (.ensureStation dialerName a)
      (s.Writes hosts (.ensureStation dialerName a)) := by
  refine wrote_of_plan (a.config = true ∧ (s .station).config.layout.screens = [])
    (s .station).config.deviceName dialerName (hs .station)
    (pass_machine .station a (.ensureStation dialerName (fingerprint hosts .dialer))) ?_
    And.left ?_
  · simp only [Arranging.plan, ensureStationArrangement, fingerprint, Layout.pairDefault_hex,
      Text.toAsciiLowercase_eq_self (hosts .dialer).fingerprint.digits,
      Layout.placePeer_besidePeer, List.isEmpty_iff, ite_and]
    rfl
  · exact ⟨fun h => ⟨⟨h.2.config, h.1⟩, h.2⟩, fun h => ⟨h.1.2, h.2⟩⟩

/-- The order of the fingerprints, where the daemon tells this machine's, or the right. -/
lemma linkSide_eq (m : PairedMachine) (now : ℕ) (peerName : Option String) (a : Answered) :
    Op.side hosts (.ensureLink m now peerName a) =
      if a.status then reciprocalPeerSide (fingerprint hosts m) (fingerprint hosts m.other)
      else .right := by
  have hmine := Fingerprint.normalizeFingerprint_hex (hosts m).fingerprint
  have hother := Fingerprint.normalizeFingerprint_hex (hosts m.other).fingerprint
  rw [reciprocalPeerSide, fingerprint, fingerprint, hmine, hother]
  by_cases hstatus : a.status = true
  · by_cases horder : (hosts m).fingerprint.hex < (hosts m.other).fingerprint.hex
    · rw [if_pos hstatus, if_pos horder]
      exact if_neg fun h => h.2 horder
    · rw [if_pos hstatus, if_neg horder]
      exact if_pos ⟨hstatus, horder⟩
  · rw [if_neg hstatus]
    exact if_neg fun h => hstatus h.1

lemma plan_link_empty {m : PairedMachine} (h : (s m).config.layout = .empty) (now : ℕ)
    (name : String) (a : Answered) :
    (s m).plan (fingerprint hosts m) a
        (.ensureLink now (some ⟨name, fingerprint hosts m.other, none⟩)) =
      if ((s m).due now && a.config) = true then
        some (.besidePeer (s m).config.deviceName name (hosts m.other).fingerprint
          (Op.side hosts (.ensureLink m now (some name) a)))
      else none := by
  have hscreens : (s m).config.layout.screens.isEmpty = true := by rw [h]; rfl
  rw [Arranging.plan, ensureLinkArrangement, if_pos hscreens, linkSide_eq]
  refine if_congr Iff.rfl ?_ rfl
  simp only [Option.map_some, fingerprint, Layout.pairDefault_hex]
  cases a.status with
  | false => rfl
  | true =>
    by_cases hright :
        reciprocalPeerSide (hosts m).fingerprint.hex (hosts m.other).fingerprint.hex = .right
    · simp [hright]
    · have hleft := reciprocalPeerSide_ne_right_iff.mp hright
      simp [hleft, Layout.placePeer_besidePeer, Except.toOption]

lemma plan_link_beside {m : PairedMachine} {selfName peerName : String} {side : Edge}
    (h : (s m).config.layout = .besidePeer selfName peerName (hosts m.other).fingerprint side)
    (hside : side = .left ∨ side = .right) (now : ℕ) (name : Option String) (peer : Option Peer)
    (a : Answered) :
    (s m).plan (fingerprint hosts m) a (.ensureLink now peer) =
      if ((s m).due now && a.config) = true then
        if side = .right ∧ Op.side hosts (.ensureLink m now name a) = .left then
          some (.besidePeer selfName peerName (hosts m.other).fingerprint
            (Op.side hosts (.ensureLink m now name a)))
        else none
      else none := by
  have hscreens : ¬(s m).config.layout.screens.isEmpty = true := by rw [h]; exact Bool.false_ne_true
  rw [Arranging.plan, ensureLinkArrangement, if_neg hscreens, linkSide_eq]
  refine if_congr Iff.rfl ?_ rfl
  unfold healLegacyArrangement
  rw [h, Layout.legacyAutoPeer_besidePeer]
  rcases hside with rfl | rfl
  · simp
  cases a.status with
  | false => simp
  | true =>
    by_cases hright : reciprocalPeerSide (fingerprint hosts m) (fingerprint hosts m.other) = .right
    · have hsame : reciprocalPeerSide (fingerprint hosts m) (hosts m.other).fingerprint.hex =
          .right := hright
      simp [hright, hsame]
    · have hleft := reciprocalPeerSide_ne_right_iff.mp hright
      have hsame : reciprocalPeerSide (fingerprint hosts m) (hosts m.other).fingerprint.hex =
          .left := hleft
      simp [hleft, hsame, Layout.placePeer_besidePeer, Except.toOption]

lemma side_empty {m : PairedMachine} (h : (s m).config.layout = .empty) :
    s.side hosts m = none := by
  rw [side, h]
  rfl

lemma side_beside {m : PairedMachine} {selfName peerName : String} {side : Edge}
    (hside : side = .left ∨ side = .right)
    (h : (s m).config.layout = .besidePeer selfName peerName (hosts m.other).fingerprint side) :
    s.side hosts m = some side := by
  rw [Pairing.side, h]
  exact Layout.sideOfPeer_besidePeer _ _ _ _ hside

/-- The link pass arranges its peer, or heals. -/
lemma wrote_link (hs : ∀ m, s.Arranged hosts m) (m : PairedMachine) (now : ℕ)
    (peerName : Option String) (a : Answered) :
    s.Wrote hosts (.ensureLink m now peerName a)
      (s.Writes hosts (.ensureLink m now peerName a)) := by
  have hstep := @pass_machine hosts s m a (.ensureLink now
    (peerName.map fun name => ⟨name, fingerprint hosts m.other, none⟩))
  rcases hs m with hempty | ⟨selfName, peerName', side, hside, hlayout⟩
  · have hnone : s.side hosts m = none := side_empty hempty
    have hscreens : (s m).config.layout.screens = [] := by rw [hempty]; rfl
    rcases peerName with _ | name
    · refine wrote_of_plan False "" "" (hs m) hstep ?_ False.elim ?_
      · have hplan : (s m).plan (fingerprint hosts m) a (.ensureLink now none) = none := by
          simp [Arranging.plan, ensureLinkArrangement, hscreens]
        exact hplan
      · simp [Writes, hnone]
    · refine wrote_of_plan (((s m).due now && a.config) = true) _ name (hs m) hstep
        (plan_link_empty hempty now name a) (fun h => (Bool.and_eq_true_iff.mp h).2) ?_
      simp only [Writes, hscreens, Option.isSome_some, and_self, true_or, and_true]
      constructor
      · exact fun h => ⟨Bool.and_eq_true_iff.mpr ⟨h.1, h.2.config⟩, h.2⟩
      · exact fun h => ⟨(Bool.and_eq_true_iff.mp h.1).1, h.2⟩
  · have hsome : s.side hosts m = some side := side_beside hside hlayout
    have hscreens : (s m).config.layout.screens ≠ [] := by rw [hlayout]; exact List.cons_ne_nil _ _
    refine wrote_of_plan (((s m).due now && a.config) = true ∧ side = .right ∧
      Op.side hosts (.ensureLink m now peerName a) = .left) selfName peerName' (hs m) hstep ?_
      (fun h => (Bool.and_eq_true_iff.mp h.1).2) ?_
    · rw [ite_and]
      exact plan_link_beside hlayout hside now peerName _ a
    · simp only [Writes, hsome, hscreens, false_and, false_or, Option.some.injEq]
      constructor
      · exact fun h => ⟨⟨Bool.and_eq_true_iff.mpr ⟨h.1, h.2.1.config⟩, h.2.2⟩, h.2.1⟩
      · exact fun h => ⟨(Bool.and_eq_true_iff.mp h.1.1).1, h.2, h.1.2⟩

/-- What an operation did. -/
lemma wrote (hs : ∀ m, s.Arranged hosts m) (op : Op) : s.Wrote hosts op (s.Writes hosts op) := by
  cases op with
  | ensureDefault stationName a => exact wrote_default hs stationName a
  | ensureStation dialerName a => exact wrote_station hs dialerName a
  | ensureLink m now peerName a => exact wrote_link hs m now peerName a
  | restart m =>
    have hself := Function.update_self m (s m).restart s
    exact Or.inr ⟨not_false, (congrArg Arranging.config hself).trans rfl⟩

/-! ### Sides -/

lemma Arranged.side_cases {m : PairedMachine} (h : s.Arranged hosts m) :
    (s m).config.layout.screens = [] ∧ s.side hosts m = none ∨
      (s m).config.layout.screens ≠ [] ∧
        (s.side hosts m = some .left ∨ s.side hosts m = some .right) := by
  rcases h with hempty | ⟨selfName, peerName, side, hside, hlayout⟩
  · exact Or.inl ⟨by rw [hempty]; rfl, side_empty hempty⟩
  · refine Or.inr ⟨by rw [hlayout]; exact List.cons_ne_nil _ _, ?_⟩
    rw [side_beside hside hlayout]
    exact hside.imp (congrArg some) (congrArg some)

/-- Two machines face each other if they do not have each other on one side. -/
lemma reciprocal_iff (hs : ∀ m, s.Arranged hosts m) (m : PairedMachine) :
    s.Reciprocal hosts ↔ ∀ side, s.side hosts m = some side →
      s.side hosts m.other ≠ some side := by
  have hall : (∀ m, (s m).config.layout.screens ≠ []) ↔
      (s .dialer).config.layout.screens ≠ [] ∧ (s .station).config.layout.screens ≠ [] :=
    ⟨fun h => ⟨h _, h _⟩, fun h m => by cases m; exacts [h.1, h.2]⟩
  rw [Reciprocal, hall]
  cases m <;>
  rcases (hs .dialer).side_cases with ⟨hd, hd'⟩ | ⟨hd, hd' | hd'⟩ <;>
  rcases (hs .station).side_cases with ⟨ht, ht'⟩ | ⟨ht, ht' | ht'⟩ <;>
  simp [PairedMachine.other, hd, hd', ht, ht']

lemma side_congr {s' : Pairing} {m : PairedMachine} (h : (s' m).config = (s m).config) :
    s'.side hosts m = s.side hosts m := by
  rw [side, side, h]

lemma Arranged.congr {s' : Pairing} {m : PairedMachine} (h : s.Arranged hosts m)
    (hconfig : (s' m).config = (s m).config) : s'.Arranged hosts m := by
  rw [Arranged, hconfig]
  exact h

lemma PairedMachine.eq_or_other (m m' : PairedMachine) : m' = m ∨ m' = m.other := by
  cases m <;> cases m' <;> decide

lemma Op.side_cases (op : Op) : op.side hosts = .left ∨ op.side hosts = .right := by
  cases op with
  | ensureDefault | restart => exact Or.inr rfl
  | ensureStation => exact Or.inl rfl
  | ensureLink m now peerName a => exact ite_eq_or_eq _ _ _

/-- Passes leave arrangements of their kind. -/
lemma arranged_step (hs : ∀ m, s.Arranged hosts m) (op : Op) (m : PairedMachine) :
    (s.step hosts op).1.Arranged hosts m := by
  rcases PairedMachine.eq_or_other op.machine m with rfl | rfl
  · rcases wrote hs op with ⟨-, selfName, peerName, hlayout⟩ | ⟨-, hconfig⟩
    · exact Or.inr ⟨selfName, peerName, op.side hosts, op.side_cases, hlayout⟩
    · exact (hs _).congr hconfig
  · exact (hs _).congr (congrArg Arranging.config (step_other op))

/-- The two stay reciprocal exactly if a pass that writes goes by the other side. -/
lemma staysReciprocal_iff (hs : ∀ m, s.Arranged hosts m) (hreciprocal : s.Reciprocal hosts)
    (op : Op) : s.StaysReciprocal hosts op ↔ s.Faces hosts op := by
  have hother : (s.step hosts op).1.side hosts op.machine.other =
      s.side hosts op.machine.other :=
    side_congr (congrArg Arranging.config (step_other op))
  rw [StaysReciprocal, reciprocal_iff (arranged_step hs op) op.machine, hother]
  rcases wrote hs op with ⟨hwrites, selfName, peerName, hlayout⟩ | ⟨hwrites, hconfig⟩
  · rw [side_beside op.side_cases hlayout]
    constructor
    · exact fun h _ => h _ rfl
    · rintro h side hside
      obtain rfl := Option.some.inj hside
      exact h hwrites
  · rw [side_congr hconfig, ← reciprocal_iff hs]
    exact iff_of_true hreciprocal fun h => absurd h hwrites

end Pairing

/-! ### Two machines -/

/-- **Sides**. However the passes of two machines and the restarts of their UIs follow one another,
the two have each other on opposite sides after every pass, once both have an arrangement, exactly
if no pass that writes goes by the side where the other machine has this one. -/
theorem sides_reciprocal_iff (hosts : PairedMachine → PairHost) (configs : PairedMachine → Config)
    (ops : List Pairing.Op) :
    Trace.Each (fun m => (Pairing.after hosts configs m).StaysReciprocal hosts) ops ↔
      Trace.Each (fun m => (Pairing.after hosts configs m).Faces hosts) ops := by
  have hinv : ∀ m, Trace.Each (fun m => (Pairing.after hosts configs m).Faces hosts) m →
      (∀ machine, (Pairing.after hosts configs m).Arranged hosts machine) ∧
        (Pairing.after hosts configs m).Reciprocal hosts := by
    intro m hm
    refine Trace.invariant (I := fun _ (s : Pairing) =>
      (∀ machine, s.Arranged hosts machine) ∧ s.Reciprocal hosts) ?_ ?_ hm
    · exact ⟨fun _ => Or.inl rfl, fun h => absurd rfl (h .dialer)⟩
    · exact fun m op hs hop => ⟨Pairing.arranged_step hs.1 op,
        (Pairing.staysReciprocal_iff hs.1 hs.2 op).mpr hop⟩
  exact Trace.each_congr fun m op hm =>
    Pairing.staysReciprocal_iff (hinv m hm).1 (hinv m hm).2 op

/-- The dialer has the higher fingerprint. -/
def bobDials : PairedMachine → PairHost
  | .dialer => ⟨false, UdpLinks.bob⟩
  | .station => ⟨false, UdpLinks.alice⟩

def deskAndLaptop : PairedMachine → Config
  | .dialer => .fresh "desk"
  | .station => .fresh "laptop"

/-- Each arranges the other by its role; then the dialer polls. -/
def pairAndPoll : List Pairing.Op :=
  let answered : Answered := ⟨true, true, true, .ok ()⟩
  [.ensureDefault "laptop" answered, .ensureStation "desk" answered,
    .ensureLink .dialer 60 (some "laptop") answered]

/-- The dialer has the station on its right and the station has it on its left, until a poll of the
dialer moves the station to the left, too. -/
theorem heal_breaks_sides :
    (bobDials .dialer).fingerprint ≠ (bobDials .station).fingerprint ∧
      (Pairing.after bobDials deskAndLaptop pairAndPoll).side bobDials .dialer = some .left ∧
      (Pairing.after bobDials deskAndLaptop pairAndPoll).side bobDials .station = some .left ∧
      ¬Trace.Each (fun m => (Pairing.after bobDials deskAndLaptop m).StaysReciprocal bobDials)
        pairAndPoll := by
  have hdialer : (Pairing.after bobDials deskAndLaptop pairAndPoll).side bobDials .dialer =
      some .left := by decide +kernel
  have hstation : (Pairing.after bobDials deskAndLaptop pairAndPoll).side bobDials .station =
      some .left := by decide +kernel
  refine ⟨by decide +kernel, hdialer, hstation, fun h => ?_⟩
  have hlast := Trace.each_iff_getElem.mp h ⟨2, by decide⟩
  have hscreens : ∀ m,
      (Pairing.after bobDials deskAndLaptop pairAndPoll m).config.layout.screens ≠ [] := by
    intro m
    cases m <;> decide +kernel
  rcases hlast hscreens with ⟨-, hright⟩ | ⟨hright, -⟩
  · exact absurd (hstation.symm.trans hright) (by decide)
  · exact absurd (hdialer.symm.trans hright) (by decide)

end TheKvm

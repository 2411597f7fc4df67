import TheKvm.Protocol.Udp
import TheKvm.Ui.Settings

/-!
The screen arrangement of a machine.

The user places screens; passes of the UI arrange a new peer, and heal the one shape that older
builds arranged wrongly. A pass is run at pairing, at an inbound link or at a poll.
-/

namespace TheKvm

open Control

/-! ### Passes -/

/-- Which requests the daemon answers while an action or a pass is at work, and what comes of the
write. -/
structure Answered where
  config : Bool
  status : Bool
  current : Bool
  saved : Except String Unit

/-- The configuration after a settings action, and whether it was applied. -/
def SettingsAction.write (windows : Bool) (saved : Except String Unit) (config : Config)
    (action : SettingsAction) : Config × Bool :=
  match action.request config with
  | none => (config, false)
  | some update =>
    match setConfig windows config saved update with
    | (config, .applied _) => (config, true)
    | (config, _) => (config, false)

/-- `write_arrangement`: it reads the settings again. -/
def writeArrangement (windows : Bool) (a : Answered) (config : Config) (layout : Layout) :
    Config × Bool :=
  if a.current then (SettingsAction.writeArrangement layout).write windows a.saved config
  else (config, false)

/-- At pairing, on the machine that dialed: the peer on the right. -/
def ensureDefaultArrangement (config : Config) (peerName peerFingerprint : String) :
    Option Layout :=
  if config.layout.screens.isEmpty then
    some (.pairDefault config.deviceName peerName peerFingerprint)
  else none

/-- At the first inbound link: the peer on the left. -/
def ensureStationArrangement (config : Config) (peerName fingerprint : String) : Option Layout :=
  if config.layout.screens.isEmpty then
    let fingerprint := Text.toAsciiLowercase fingerprint
    ((Layout.pairDefault config.deviceName peerName fingerprint).placePeer fingerprint
      .left).toOption
  else none

/-- A side from both fingerprints. -/
def reciprocalPeerSide (myFingerprint peerFingerprint : String) : Edge :=
  if normalizeFingerprint myFingerprint < normalizeFingerprint peerFingerprint then .right
  else .left

/-- The peer of the shape that older builds wrote: this machine at the origin, one peer on its
right. -/
def legacyAutoPeer (l : Layout) : Option String :=
  if l.screens.length ≠ 2 then none
  else
    match l.me with
    | none => none
    | some me =>
      if me.x ≠ 0 ∨ me.y ≠ 0 then none
      else
        match l.screens.find? (·.peerFingerprint.isSome) with
        | none => none
        | some peer => if peer.x ≠ 1 ∨ peer.y ≠ 0 then none else peer.peerFingerprint

/-- `status` is the fingerprint of this machine, if the daemon tells it. -/
def healLegacyArrangement (config : Config) (status : Option String) : Option Layout :=
  match legacyAutoPeer config.layout, status with
  | some fingerprint, some myFingerprint =>
    if reciprocalPeerSide myFingerprint fingerprint = .right then none
    else
      (config.layout.placePeer fingerprint
        (reciprocalPeerSide myFingerprint fingerprint)).toOption
  | _, _ => none

/-- At a poll; `peer` is the first of the daemon's book, else of the user's. -/
def ensureLinkArrangement (config : Config) (peer : Option Peer) (status : Option String) :
    Option Layout :=
  if config.layout.screens.isEmpty then
    peer.map fun peer =>
      let layout := Layout.pairDefault config.deviceName peer.name peer.fingerprintHex
      match status with
      | none => layout
      | some myFingerprint =>
        if reciprocalPeerSide myFingerprint peer.fingerprintHex = .right then layout
        else
          (layout.placePeer peer.fingerprintHex
            (reciprocalPeerSide myFingerprint peer.fingerprintHex)).toOption.getD layout
  else healLegacyArrangement config status

inductive Pass
  | ensureDefault (peerName peerFingerprint : String)
  | ensureStation (peerName fingerprint : String)
  | ensureLink (now : ℕ) (peer : Option Peer)

/-- The settings, and when the link pass last looked at them, in seconds. -/
structure Arranging where
  config : Config
  lastArrangeCheck : ℕ

namespace Arranging

/-- The link pass looks once a minute. -/
def due (s : Arranging) (now : ℕ) : Bool := s.lastArrangeCheck + 60 ≤ now

/-- The layout that a pass is to write. -/
def plan (myFingerprint : String) (s : Arranging) (a : Answered) : Pass → Option Layout
  | .ensureDefault peerName peerFingerprint =>
    if a.config then ensureDefaultArrangement s.config peerName peerFingerprint else none
  | .ensureStation peerName fingerprint =>
    if a.config then ensureStationArrangement s.config peerName fingerprint else none
  | .ensureLink now peer =>
    if s.due now && a.config then
      ensureLinkArrangement s.config peer (if a.status then some myFingerprint else none)
    else none

def checked (s : Arranging) : Pass → ℕ
  | .ensureLink now _ => now
  | _ => s.lastArrangeCheck

def pass (windows : Bool) (myFingerprint : String) (s : Arranging) (a : Answered) (pass : Pass) :
    Arranging where
  config :=
    match s.plan myFingerprint a pass with
    | none => s.config
    | some layout => (writeArrangement windows a s.config layout).1
  lastArrangeCheck := s.checked pass

/-- A restart of the UI. -/
def restart (s : Arranging) : Arranging := { s with lastArrangeCheck := 0 }

end Arranging

/-! ### Explicit placements -/

namespace Layout

/-- The layout with a screen for the peer. -/
def withPeer (l : Layout) (name fingerprint : String) : Layout :=
  if l.screens.any (Screen.pinnedTo fingerprint) then l
  else
    { l with
      screens := l.screens ++
        [⟨l.nextScreenId, name, 0, 0, 1920, 1080, some (Text.toAsciiLowercase fingerprint)⟩] }

/-- An import may have named no local screen. -/
def withSelf (l : Layout) : Layout :=
  if l.me.isNone then
    { l with
      selfScreen :=
        ((l.screens.find? (·.peerFingerprint.isNone)).or l.screens.head?).map Screen.id }
  else l

/-- The layout with the pins of a name renewed, if one is to be. -/
def adoptFingerprint (l : Layout) (peerName fingerprintHex : String) : Option Layout :=
  let ghost (screen : Screen) : Bool :=
    screen.name = peerName && !screen.pinnedTo fingerprintHex
  if l.screens.any ghost then
    some { l with
      screens := l.screens.map fun screen =>
        if ghost screen then { screen with peerFingerprint := some fingerprintHex } else screen }
  else none

end Layout

/-- The arrangement buttons. -/
def arrangePlacePeer (config : Config) (name fingerprint : String) (side : Edge) : Option Layout :=
  let layout :=
    if config.layout.screens.isEmpty then .pairDefault config.deviceName name fingerprint
    else config.layout
  ((layout.withPeer name fingerprint).withSelf.placePeer fingerprint side).toOption

/-! ### Placements and passes -/

/-- The arrangement, and the places that the last explicit action gave. -/
structure Placing extends Arranging where
  given : List (ScreenId × Int32 × Int32)

namespace Placing

inductive Op
  /-- A press of an arrangement button; the peer has a name if it is in a book. -/
  | place (name : Option String) (fingerprint : String) (side : Edge) (a : Answered)
  | importLayout (layout : Layout) (a : Answered)
  | pass (pass : Pass) (a : Answered)
  /-- The link of a peer is up, or it connected: its screen takes the fingerprint. -/
  | adopt (peerName fingerprintHex : String) (a : Answered)
  | restart

/-- What an explicit action leaves. -/
def explicit (s : Placing) : Config × Bool → Placing
  | (config, true) => { s with config, given := config.layout.grid }
  | (_, false) => s

variable (windows : Bool) (myFingerprint : String)

def step (s : Placing) : Op → Placing × Unit
  | .place name fingerprint side a =>
    match if a.config then name else none with
    | none => (s, ())
    | some name =>
      match arrangePlacePeer s.config name fingerprint side with
      | none => (s, ())
      | some layout => (s.explicit (writeArrangement windows a s.config layout), ())
  | .importLayout layout a =>
    if a.config then
      (s.explicit ((SettingsAction.importLayout layout).write windows a.saved s.config), ())
    else (s, ())
  | .pass pass a =>
    ({ s with toArranging := s.toArranging.pass windows myFingerprint a pass }, ())
  | .adopt peerName fingerprintHex a =>
    match if a.config then s.config.layout.adoptFingerprint peerName fingerprintHex else none with
    | none => (s, ())
    | some layout => ({ s with config := (writeArrangement windows a s.config layout).1 }, ())
  | .restart => ({ s with toArranging := s.toArranging.restart }, ())

def start (config : Config) : Placing := ⟨⟨config, 0⟩, []⟩

def after (config : Config) (ops : List Op) : Placing :=
  Trace.final (step windows myFingerprint) (start config) ops

/-- Every screen is where the last explicit action put it. -/
def Kept (s : Placing) : Prop := s.given ⊆ s.config.layout.grid

/-- The places are kept by what comes. -/
def Keeps (s : Placing) (op : Op) : Prop := (s.step windows myFingerprint op).1.Kept

end Placing

/-- A link pass heals: it looks, the daemon answers it and takes what it writes, the arrangement is
this machine at the origin with one peer on its right, and the fingerprint of this machine is not
below the peer's. -/
structure Arranging.Heals (windows : Bool) (myFingerprint : String) (s : Arranging) (now : ℕ)
    (a : Answered) (fingerprint : String) (layout : Layout) : Prop where
  due : s.due now = true
  config : a.config = true
  status : a.status = true
  legacy : legacyAutoPeer s.config.layout = some fingerprint
  order : ¬normalizeFingerprint myFingerprint < normalizeFingerprint fingerprint
  placed : s.config.layout.placePeer fingerprint .left = .ok layout
  written : (writeArrangement windows a s.config layout).2 = true

/-- No link pass heals an arrangement that an explicit action left. -/
def Placing.Unhealed (windows : Bool) (myFingerprint : String) (s : Placing) :
    Placing.Op → Prop
  | .pass (.ensureLink now _) a => ∀ fingerprint layout,
    s.Heals windows myFingerprint now a fingerprint layout → s.given = []
  | _ => True

/-! ### Writes -/

/-- A write is applied, with its layout, or changes nothing. -/
lemma write_layout (windows : Bool) {config : Config} {saved : Except String Unit}
    {action : SettingsAction} {layout : Layout}
    (h : action = .writeArrangement layout ∨ action = .importLayout layout) :
    let written := action.write windows saved config
    written.2 = true ∧ written.1.layout = layout ∨ written = (config, false) := by
  have hlayout : ∀ update, action.request config = some update → update.layout = some layout := by
    intro update hu
    rcases h with rfl | rfl <;> rw [SettingsAction.request, Option.ite_none_right_eq_some] at hu
    all_goals
      obtain rfl := Option.some.inj hu.2
      rfl
  unfold SettingsAction.write
  rcases hu : action.request config with _ | update
  · exact Or.inr rfl
  simp only
  by_cases haccepted : update.Accepted config saved
  · rw [setConfig_of_accepted windows haccepted]
    exact Or.inl ⟨rfl, by rw [ConfigUpdate.applied, hlayout update hu, Option.getD_some]⟩
  · obtain ⟨message, hset⟩ := setConfig_of_not_accepted windows haccepted
    rw [hset]
    exact Or.inr rfl

lemma writeArrangement_cases (windows : Bool) (a : Answered) (config : Config)
    (layout : Layout) :
    let written := writeArrangement windows a config layout
    written.2 = true ∧ written.1.layout = layout ∨ written = (config, false) := by
  unfold writeArrangement
  split
  · exact write_layout windows (Or.inl rfl)
  · exact Or.inr rfl

/-! ### What is healed -/

section

variable {l placed : Layout} {fingerprint : String}

lemma legacyAutoPeer_eq_some (h : legacyAutoPeer l = some fingerprint) :
    ∃ me peer, l.screens.length = 2 ∧ l.me = some me ∧ (me.x = 0 ∧ me.y = 0) ∧
      l.screens.find? (·.peerFingerprint.isSome) = some peer ∧ (peer.x = 1 ∧ peer.y = 0) ∧
      peer.peerFingerprint = some fingerprint := by
  unfold legacyAutoPeer at h
  split_ifs at h with hlen
  split at h
  · cases h
  rename_i me hme
  split_ifs at h with horigin
  split at h
  · cases h
  rename_i peer hpeer
  split_ifs at h with hright
  push Not at hlen horigin hright
  exact ⟨me, peer, hlen, hme, horigin, hpeer, hright, h⟩

lemma placePeer_eq_ok {side : Edge} (h : l.placePeer fingerprint side = .ok placed) :
    ∃ me, l.me = some me ∧ placed = { l with
      screens := Layout.modifyFirst (Screen.pinnedTo fingerprint)
        (Screen.moveTo (me.beside side).1 (me.beside side).2) l.screens } := by
  unfold Layout.placePeer at h
  split at h
  · cases h
  rename_i me hme
  rcases hbeside : me.beside side with ⟨x, y⟩
  rw [hbeside] at h
  simp only at h
  split_ifs at h
  exact ⟨me, hme, by rw [hbeside]; exact (Except.ok.inj h).symm⟩

lemma Layout.me_mem {me : Screen} (h : l.me = some me) : me ∈ l.screens := by
  obtain ⟨id, -, hme⟩ := Option.bind_eq_some_iff.mp h
  exact List.mem_of_find?_eq_some hme

/-- A healed peer is no longer where it was. -/
lemma placed_moves (hlegacy : legacyAutoPeer l = some fingerprint)
    (hplaced : l.placePeer fingerprint .left = .ok placed) : ¬l.grid ⊆ placed.grid := by
  obtain ⟨me, peer, hlen, hme, ⟨hx, hy⟩, hpeer, ⟨hpx, hpy⟩, hpin⟩ := legacyAutoPeer_eq_some hlegacy
  obtain ⟨me', hme', rfl⟩ := placePeer_eq_ok hplaced
  obtain rfl := Option.some.inj (hme.symm.trans hme')
  obtain ⟨s, t, hscreens⟩ := List.length_eq_two.mp hlen
  have hmem := Layout.me_mem hme
  have hbeside : me.beside .left = (-1, 0) := by simp [Screen.beside, hx, hy]
  rw [hscreens] at hmem hpeer
  intro hsub
  have hat : (peer.id, (1 : Int32), (0 : Int32)) ∈ l.grid :=
    List.mem_map.mpr ⟨peer, hscreens ▸ List.mem_of_find?_eq_some hpeer, by rw [hpx, hpy]⟩
  replace hat := hsub hat
  have hpinned : Screen.pinnedTo fingerprint peer = true := decide_eq_true hpin
  simp only [Layout.grid, hbeside, hscreens] at hat
  have hapart : me ≠ peer := by
    rintro rfl
    rw [hx] at hpx
    exact absurd hpx (by decide)
  rcases List.find?_cons_eq_some.mp hpeer with ⟨-, rfl⟩ | ⟨hs, ht⟩
  · -- the peer's screen is the first
    obtain rfl : me = t := by simpa [hapart] using hmem
    rw [Layout.modifyFirst, if_pos hpinned] at hat
    simp [Screen.moveTo, hx] at hat
  · obtain rfl : peer = t := by simpa using List.mem_of_find?_eq_some ht
    obtain rfl : me = s := by simpa [hapart] using hmem
    have hlocal : Screen.pinnedTo fingerprint me = false := by
      rw [Bool.not_eq_true', Option.isSome_eq_false_iff, Option.isNone_iff_eq_none] at hs
      rw [Screen.pinnedTo, hs]
      rfl
    rw [Layout.modifyFirst, hlocal, Layout.modifyFirst, if_neg Bool.false_ne_true,
      if_pos hpinned] at hat
    simp [Screen.moveTo, hx] at hat

end

section

variable {windows : Bool} {myFingerprint : String} {s : Arranging} {now : ℕ} {a : Answered}
  {fingerprint : String} {layout : Layout}

lemma reciprocalPeerSide_eq_left_iff : reciprocalPeerSide myFingerprint fingerprint = .left ↔
    ¬normalizeFingerprint myFingerprint < normalizeFingerprint fingerprint := by
  unfold reciprocalPeerSide
  split_ifs with h <;> simp [h]

lemma reciprocalPeerSide_ne_right_iff : reciprocalPeerSide myFingerprint fingerprint ≠ .right ↔
    reciprocalPeerSide myFingerprint fingerprint = .left := by
  unfold reciprocalPeerSide
  split_ifs <;> simp

/-- What heals is planned. -/
lemma Arranging.Heals.plan (h : s.Heals windows myFingerprint now a fingerprint layout)
    (peer : Option Peer) : s.plan myFingerprint a (.ensureLink now peer) = some layout := by
  have hleft := reciprocalPeerSide_eq_left_iff.mpr h.order
  obtain ⟨-, -, hlen, -⟩ := legacyAutoPeer_eq_some h.legacy
  have hscreens : s.config.layout.screens.isEmpty = false := by
    rw [List.isEmpty_eq_false_iff_exists_mem, ← List.length_pos_iff_exists_mem, hlen]
    omega
  have hheal : healLegacyArrangement s.config (some myFingerprint) = some layout := by
    unfold healLegacyArrangement
    rw [h.legacy]
    simp only [hleft, h.placed]
    rfl
  have hensure : ensureLinkArrangement s.config peer (some myFingerprint) = some layout := by
    rw [ensureLinkArrangement, hscreens]
    exact hheal
  simp only [Arranging.plan, h.due, h.config, h.status, Bool.and_self, if_true]
  exact hensure

/-- Where there are screens, only a heal is planned. -/
lemma Arranging.heals_of_plan (hscreens : s.config.layout.screens.isEmpty = false) {pass : Pass}
    (hplan : s.plan myFingerprint a pass = some layout)
    (hwritten : (writeArrangement windows a s.config layout).2 = true) :
    ∃ now peer fingerprint, pass = .ensureLink now peer ∧
      s.Heals windows myFingerprint now a fingerprint layout := by
  cases pass with
  | ensureDefault peerName peerFingerprint =>
    simp [plan, ensureDefaultArrangement, hscreens] at hplan
  | ensureStation peerName fingerprint =>
    simp [plan, ensureStationArrangement, hscreens] at hplan
  | ensureLink now peer =>
    simp only [plan, ensureLinkArrangement, hscreens, Bool.false_eq_true, if_false,
      Option.ite_none_right_eq_some, Bool.and_eq_true] at hplan
    obtain ⟨⟨hdue, hconfig⟩, hheal⟩ := hplan
    unfold healLegacyArrangement at hheal
    split at hheal
    · rename_i fingerprint mine hlegacy hmine
      rw [Option.ite_none_right_eq_some] at hmine
      obtain ⟨hstatus, hmine⟩ := hmine
      obtain rfl := Option.some.inj hmine
      split_ifs at hheal with hright
      have hleft := reciprocalPeerSide_ne_right_iff.mp hright
      rw [hleft] at hheal
      refine ⟨now, peer, fingerprint, rfl, hdue, hconfig, hstatus, hlegacy,
        reciprocalPeerSide_eq_left_iff.mp hleft, ?_, hwritten⟩
      cases hplaced : s.config.layout.placePeer fingerprint .left with
      | ok placed =>
        rw [hplaced] at hheal
        exact congrArg Except.ok (Option.some.inj hheal)
      | error message =>
        rw [hplaced] at hheal
        cases hheal
    · cases hheal

/-- A pass changes nothing, or writes what it planned. -/
lemma Arranging.pass_cases (windows : Bool) (myFingerprint : String) (s : Arranging)
    (a : Answered) (pass : Pass) :
    (s.pass windows myFingerprint a pass).config = s.config ∨
      ∃ layout, s.plan myFingerprint a pass = some layout ∧
        (writeArrangement windows a s.config layout).2 = true ∧
        (s.pass windows myFingerprint a pass).config.layout = layout := by
  unfold Arranging.pass
  rcases hplan : s.plan myFingerprint a pass with _ | layout
  · exact Or.inl rfl
  · rcases writeArrangement_cases windows a s.config layout with
      ⟨hwritten, hlayout⟩ | hwritten
    · exact Or.inr ⟨layout, rfl, hwritten, hlayout⟩
    · exact Or.inl (congrArg Prod.fst hwritten)

end

/-! ### What is kept -/

namespace Placing

variable {windows : Bool} {myFingerprint : String} {s : Placing}

/-- An explicit action left the arrangement as it is, or gave no place. -/
def Sound (s : Placing) : Prop := s.given = [] ∨ s.given = s.config.layout.grid

lemma Sound.kept (h : s.Sound) : s.Kept := by
  rcases h with h | h <;> rw [Kept, h]
  · exact List.nil_subset _
  · exact List.Subset.refl _

lemma Sound.explicit (h : s.Sound) (written : Config × Bool) : (s.explicit written).Sound := by
  rcases written with ⟨config, _ | _⟩
  · exact h
  · exact Or.inr rfl

lemma grid_adoptFingerprint {l layout : Layout} {peerName fingerprintHex : String}
    (h : l.adoptFingerprint peerName fingerprintHex = some layout) : layout.grid = l.grid := by
  unfold Layout.adoptFingerprint at h
  obtain ⟨-, h⟩ := Option.ite_none_right_eq_some.mp h
  obtain rfl := Option.some.inj h
  simp only [Layout.grid, List.map_map]
  refine List.map_congr_left fun screen _ => ?_
  simp only [Function.comp_apply]
  split_ifs <;> rfl

lemma Sound.adopt (h : s.Sound) (peerName fingerprintHex : String) (a : Answered) :
    (s.step windows myFingerprint (.adopt peerName fingerprintHex a)).1.Sound := by
  unfold step
  rcases hplan : (if a.config then s.config.layout.adoptFingerprint peerName fingerprintHex
    else none) with _ | layout
  · simpa only [hplan] using h
  simp only [hplan]
  have hgrid := grid_adoptFingerprint (Option.ite_none_right_eq_some.mp hplan).2
  rcases writeArrangement_cases windows a s.config layout with
    ⟨-, hlayout⟩ | hwritten
  · rw [Sound, hlayout, hgrid]
    exact h
  · rw [hwritten]
    exact h

/-- A pass that heals nothing placed keeps the places. -/
lemma Sound.pass (h : s.Sound) {pass : Pass} {a : Answered}
    (hop : s.Unhealed windows myFingerprint (.pass pass a)) :
    (s.step windows myFingerprint (.pass pass a)).1.Sound := by
  rcases h with hnone | hgrid
  · exact Or.inl hnone
  rcases Arranging.pass_cases windows myFingerprint s.toArranging a pass with
    hsame | ⟨layout, hplan, hwritten, -⟩
  · right
    rw [step, hsame]
    exact hgrid
  · left
    rcases hscreens : s.config.layout.screens with _ | ⟨screen, rest⟩
    · rw [step, hgrid, Layout.grid, hscreens]
      rfl
    · obtain ⟨now, peer, fingerprint, rfl, hheals⟩ :=
        Arranging.heals_of_plan (by rw [hscreens]; rfl) hplan hwritten
      exact hop fingerprint layout hheals

lemma unhealed_of_keeps (h : s.Sound) {op : Op} (hkeeps : s.Keeps windows myFingerprint op) :
    s.Unhealed windows myFingerprint op := by
  match op with
  | .pass (.ensureLink now peer) a =>
    intro fingerprint layout hheals
    rcases h with hnone | hgrid
    · exact hnone
    have hlayout : (s.toArranging.pass windows myFingerprint a
        (.ensureLink now peer)).config.layout = layout := by
      rw [Arranging.pass, hheals.plan peer]
      rcases writeArrangement_cases windows a s.config layout with
        ⟨-, hlayout⟩ | hwritten
      · exact hlayout
      · exact absurd hheals.written (by rw [hwritten]; exact Bool.false_ne_true)
    have hsub : s.given ⊆ layout.grid := hlayout ▸ hkeeps
    rw [hgrid] at hsub
    exact absurd hsub (placed_moves hheals.legacy hheals.placed)
  | .pass (.ensureDefault _ _) _ | .pass (.ensureStation _ _) _ | .place _ _ _ _
  | .importLayout _ _ | .adopt _ _ _ | .restart => trivial

/-- An operation under which the places are kept leaves the arrangement sound. -/
lemma Sound.step (h : s.Sound) {op : Op} (hop : s.Unhealed windows myFingerprint op) :
    (s.step windows myFingerprint op).1.Sound := by
  cases op with
  | place name fingerprint side a =>
    simp only [Placing.step]
    split
    · exact h
    · split
      · exact h
      · exact h.explicit _
  | importLayout layout a =>
    simp only [Placing.step]
    split
    · exact h.explicit _
    · exact h
  | pass pass a => exact h.pass hop
  | adopt peerName fingerprintHex a => exact h.adopt peerName fingerprintHex a
  | restart => exact h

lemma keeps_iff (h : s.Sound) (op : Op) :
    s.Keeps windows myFingerprint op ↔ s.Unhealed windows myFingerprint op :=
  ⟨unhealed_of_keeps h, fun hop => (h.step hop).kept⟩

end Placing

/-- **Placements**. Along every run of explicit placements, passes, links and restarts, every screen
stays where the last explicit action put it exactly if no link pass heals an arrangement that an
explicit action left. -/
theorem placements_kept_iff (windows : Bool) (myFingerprint : String) (config : Config)
    (ops : List Placing.Op) :
    Trace.Each (fun m => (Placing.after windows myFingerprint config m).Keeps windows
        myFingerprint) ops ↔
      Trace.Each (fun m => (Placing.after windows myFingerprint config m).Unhealed windows
        myFingerprint) ops := by
  refine Trace.each_congr fun m op hm => Placing.keeps_iff ?_ op
  exact Trace.invariant (I := fun _ (s : Placing) => s.Sound) (Or.inl rfl)
    (fun m op hs hop => hs.step hop) hm

/-- The user puts the peer on the right; a minute later it is on the left. -/
theorem heal_moves_placed_peer :
    let mine := String.ofList (List.replicate 64 'b')
    let peer := String.ofList (List.replicate 64 'a')
    let answered : Answered := ⟨true, true, true, .ok ()⟩
    let ops : List Placing.Op :=
      [.place (some "laptop") peer .right answered, .pass (.ensureLink 60 none) answered]
    let s := Placing.after false mine (Config.fresh "desk") ops
    s.given = [(⟨1⟩, 0, 0), (⟨2⟩, 1, 0)] ∧
      s.config.layout.grid = [(⟨1⟩, 0, 0), (⟨2⟩, -1, 0)] ∧
      ¬Trace.Each (fun m => (Placing.after false mine (Config.fresh "desk") m).Keeps false mine)
        ops := by
  refine ⟨by decide +kernel, by decide +kernel, fun h => ?_⟩
  have hlast := Trace.each_iff_getElem.mp h ⟨1, by decide⟩
  exact absurd hlast (by unfold Placing.Keeps Placing.Kept; decide +kernel)

end TheKvm

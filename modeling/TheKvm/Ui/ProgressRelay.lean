import TheKvm.Lib.Text
import TheKvm.Ui.SessionSlot

/-!
The relays of the children's progress, and what they do to the slot.

Each child has a relay that reads its lines. They may be read long after the child has ended,
when the slot holds another child.
-/

namespace TheKvm

/-! ### Lines -/

namespace Progress

/-- `str::trim`, on characters. -/
def trim (cs : List Char) : List Char :=
  (cs.dropWhile Text.isWhitespace).rdropWhile Text.isWhitespace

/-- `str::parse::<u64>`, `Err` as `none`. -/
def parseU64 (cs : List Char) : Option UInt64 :=
  let digits := (cs.dropPrefix? ['+']).getD cs
  if digits.isEmpty ∨ ¬digits.all Char.isDigit then none
  else
    let n := digits.foldl (fun n c => 10 * n + (c.toNat - 48)) 0
    if n < UInt64.size then some (UInt64.ofNat n) else none

/-- `str::trim_start_matches`; the pattern is not empty, so the length bounds its uses. -/
def trimStartMatches (pattern : List Char) : ℕ → List Char → List Char
  | 0, cs => cs
  | n + 1, cs =>
    match cs.dropPrefix? pattern with
    | some rest => trimStartMatches pattern n rest
    | none => cs

end Progress

/-- What a line of a child says, as far as the slot is concerned: the peer does not know this
computer, the link is up, it ended with a banned epoch, or the peer hung up on an epoch. -/
inductive Progress
  | refused
  | established
  | banned (epoch : Option UInt64)
  | hungUp (epoch : Option UInt64)
  | other
  deriving DecidableEq

namespace Progress

/-- `parse_ban_epoch`. -/
def parseBanEpoch (detail : List Char) : Option (Option UInt64) :=
  match detail.dropPrefix? "ban".toList with
  | none => none
  | some rest =>
    match rest with
    | ' ' :: tail =>
      let token := tail.takeWhile fun c => c != ' ' && c != '('
      if token.isEmpty ∨ token = "none".toList then some none else (parseU64 token).map some
    | rest => if (trim rest).isEmpty then some none else none

/-- The line, past its tag, as a kind and a detail. -/
def split (progress : List Char) : List Char × List Char :=
  match progress.dropWhile (· != ' ') with
  | [] => (progress, [])
  | _ :: rest => (progress.takeWhile (· != ' '), trim rest)

/-- A line that ended, by its detail. -/
def readEnded (detail : List Char) : Progress :=
  match parseBanEpoch detail with
  | some epoch => .banned epoch
  | none =>
    let gone := "peer disconnected".toList
    if gone <+: detail then .hungUp (parseU64 (trim (trimStartMatches gone detail.length detail)))
    else .other

def read (line : List Char) : Progress :=
  match line.dropPrefix? "THEKVM_STATUS ".toList with
  | none => .other
  | some progress =>
    let (kind, detail) := split progress
    if kind = "waiting".toList ∧ "peer is not paired".toList <:+: detail then .refused
    else if kind = "established".toList then .established
    else if kind = "ended".toList then readEnded detail
    else .other

end Progress

/-! ### Relays -/

/-- Where a relay is: at a line, in `stop_session` (before the take, before the kill; after the
last stop it returns), or done. -/
inductive RelayPhase
  | reading
  | stopping (last : Bool)
  | killing (child : ℕ) (last : Bool)
  | done
  deriving DecidableEq

structure RelayThread where
  address : String
  dialback : Bool
  notPairedStreak : ℕ
  phase : RelayPhase
  deriving DecidableEq

/-- Behind `stop_session` the relay returns or reads on. -/
def RelayThread.behindStop (r : RelayThread) (last : Bool) : RelayThread :=
  { r with phase := if last then .done else .reading }

/-- The slot, and the relays by their children. -/
structure ProgressRelays where
  slots : SessionSlot
  relay : ℕ → Option RelayThread

namespace ProgressRelays

/-- A step of another thread, or of a child's relay: it handles a line, goes on in
`stop_session`, or reaps at the end of its child's stderr. -/
inductive Op
  | other (op : SessionSlot.Op)
  | line (child : ℕ) (line : List Char) (unpinned : Bool)
  | proceed (child : ℕ)
  | eof (child : ℕ)

/-- What became of the slot. -/
inductive Deed
  | quiet
  | stored (child : ℕ)
  | took (relay : ℕ) (session : Session)
  | cleared (relay : ℕ) (session : Session)
  deriving DecidableEq

def init : ProgressRelays := ⟨.init, fun _ => none⟩

def setRelay (s : ProgressRelays) (child : ℕ) (r : RelayThread) : ProgressRelays :=
  { s with relay := Function.update s.relay child (some r) }

/-- The session in the slot has the epoch of the ban; with no session, a ban without one. -/
def banIsOurs (s : ProgressRelays) (epoch : Option UInt64) : Bool :=
  (s.slots.slot.bind (·.plan.linkId)) = epoch

/-- The session in the slot has the address and the epoch of the hang-up. -/
def hangUpIsOurs (s : ProgressRelays) (address : String) (epoch : Option UInt64) : Bool :=
  s.slots.slot.any fun session => session.plan.address = address ∧ session.plan.linkId = epoch

/-- A relay handles a line. The third refusal in a row stops a dial-back, and a user's child
whose peer could be unpinned. -/
def hear (s : ProgressRelays) (r : RelayThread) (unpinned : Bool) : Progress → RelayThread
  | .refused =>
    let streak := r.notPairedStreak + 1
    if streak = 3 ∧ (r.dialback ∨ unpinned) then
      { r with notPairedStreak := streak, phase := .stopping true }
    else { r with notPairedStreak := streak }
  | .established => { r with notPairedStreak := 0 }
  | .banned epoch => if s.banIsOurs epoch then { r with phase := .stopping false } else r
  | .hungUp epoch =>
    if s.hangUpIsOurs r.address epoch then { r with phase := .stopping false } else r
  | .other => r

/-- A relay goes on in `stop_session`. -/
def proceed (s : ProgressRelays) (child : ℕ) (r : RelayThread) : ProgressRelays × Deed :=
  match r.phase with
  | .stopping last =>
    match s.slots.slot with
    | none => (s.setRelay child (r.behindStop last), .quiet)
    | some session =>
      ({ s with slots := { s.slots with slot := none } }.setRelay child
        { r with phase := .killing session.child last }, .took child session)
  | .killing victim last =>
    ({ s with slots := s.slots.kill victim }.setRelay child (r.behindStop last), .quiet)
  | _ => (s, .quiet)

/-- At the end of its child's stderr a relay clears the slot if the child there has exited. -/
def eof (s : ProgressRelays) (child : ℕ) (r : RelayThread) : ProgressRelays × Deed :=
  let s := s.setRelay child { r with phase := .done }
  match s.slots.slot with
  | none => (s, .quiet)
  | some session =>
    if session.child ∈ s.slots.running then (s, .quiet)
    else ({ s with slots := { s.slots with slot := none } }, .cleared child session)

/-- What another thread's step stores: its launch starts the relay then. -/
def stores (s : ProgressRelays) : SessionSlot.Op → Option Session
  | .proceed thread _ =>
    match s.slots.caller thread with
    | .storing session => some session
    | _ => none
  | _ => none

def step (s : ProgressRelays) : Op → ProgressRelays × Deed
  | .other op =>
    let s' := { s with slots := s.slots.step op }
    match s.stores op with
    | none => (s', .quiet)
    | some session =>
      (s'.setRelay session.child ⟨session.plan.address, session.plan.dialback, 0, .reading⟩,
        .stored session.child)
  | .line child line unpinned =>
    match s.relay child with
    | none => (s, .quiet)
    | some r =>
      if r.phase = .reading then (s.setRelay child (s.hear r unpinned (.read line)), .quiet)
      else (s, .quiet)
  | .proceed child =>
    match s.relay child with
    | none => (s, .quiet)
    | some r => s.proceed child r
  | .eof child =>
    match s.relay child with
    | none => (s, .quiet)
    | some r => if r.phase = .reading then s.eof child r else (s, .quiet)

/-- The slot and the relays behind the steps of a run. -/
abbrev after (ops : List Op) : ProgressRelays := Trace.final step init ops

/-- What became of the slot on the way. -/
abbrev deeds (ops : List Op) : List Deed := Trace.outputs step init ops

/-! ### Whose child a relay stops -/

/-- A child that a relay takes or clears away while it runs is the one whose lines it reads. -/
def StopsOwn (s : ProgressRelays) (op : Op) : Prop :=
  ∀ child session, (s.step op).2 = .took child session ∨ (s.step op).2 = .cleared child session →
    session.child ∈ s.slots.running → session.child = child

/-- The child that a launch stored last. -/
def newest (deeds : List Deed) : Option ℕ :=
  (deeds.filterMap fun
    | .stored child => some child
    | _ => none).getLast?

/-- A relay comes to the take in `stop_session` while its own child is the one stored last, or
while no child runs in the slot. -/
def OwnIsNewest (s : ProgressRelays) (deeds : List Deed) : Op → Prop
  | .proceed child => ∀ r last, s.relay child = some r → r.phase = .stopping last →
    newest deeds = some child ∨ s.slots.Vacant
  | _ => True

/-! ### One step -/

variable {s : ProgressRelays} {session : Session} {past : List Deed}

lemma newest_snoc (past : List Deed) (deed : Deed) :
    newest (past ++ [deed]) = match deed with
      | .stored child => some child
      | _ => newest past := by
  unfold newest
  rw [List.filterMap_append]
  cases deed <;> simp

/-- The slot holds the child that was stored last, if it holds one. -/
def HoldsNewest (past : List Deed) (s : ProgressRelays) : Prop :=
  ∀ session, s.slots.slot = some session → newest past = some session.child

lemma stores_eq_some {op : SessionSlot.Op} (h : s.stores op = some session) :
    (s.slots.step op).slot = some session := by
  unfold stores at h
  split at h
  · rename_i thread spawns
    split at h
    · rename_i session' hcaller
      obtain rfl := Option.some.inj h
      change (s.slots.proceed thread spawns).slot = _
      unfold SessionSlot.proceed
      rw [hcaller]
      rfl
    · cases h
  · cases h

/-- Only a store puts a child in the slot. -/
lemma slot_of_stores_none {op : SessionSlot.Op} (hstores : s.stores op = none)
    (hslot : (s.slots.step op).slot = some session) : s.slots.slot = some session := by
  rcases SessionSlot.slot_step hslot with hslot | ⟨thread, spawns, rfl, hcaller⟩
  · exact hslot
  · simp only [stores, hcaller] at hstores
    cases hstores

/-- What the relay of a child may do: leave the slot as it is, take what is there in
`stop_session`, or clear an exited child away at the end of its own stderr. -/
inductive RelayMoves (s : ProgressRelays) (child : ℕ) (s' : ProgressRelays) : Op → Deed → Prop
  | quiet {op : Op} (hslot : s'.slots.slot = s.slots.slot) : RelayMoves s child s' op .quiet
  | took {session : Session} {r : RelayThread} {last : Bool} (hrelay : s.relay child = some r)
      (hphase : r.phase = .stopping last) (hslot : s.slots.slot = some session)
      (hslot' : s'.slots.slot = none) : RelayMoves s child s' (.proceed child) (.took child session)
  | cleared {op : Op} {session : Session} (hexited : session.child ∉ s.slots.running)
      (hslot' : s'.slots.slot = none) : RelayMoves s child s' op (.cleared child session)

lemma line_moves (s : ProgressRelays) (child : ℕ) (line : List Char) (unpinned : Bool) :
    RelayMoves s child (s.step (.line child line unpinned)).1 (.line child line unpinned)
      (s.step (.line child line unpinned)).2 := by
  unfold step
  dsimp only
  split
  · exact .quiet rfl
  · split_ifs <;> exact .quiet rfl

lemma proceed_moves (s : ProgressRelays) (child : ℕ) :
    RelayMoves s child (s.step (.proceed child)).1 (.proceed child)
      (s.step (.proceed child)).2 := by
  unfold step
  dsimp only
  split
  · exact .quiet rfl
  · rename_i r hrelay
    unfold proceed
    split
    · rename_i last hphase
      split
      · exact .quiet rfl
      · rename_i session hslot
        exact .took hrelay hphase hslot rfl
    · exact .quiet rfl
    · exact .quiet rfl

lemma eof_moves (s : ProgressRelays) (child : ℕ) :
    RelayMoves s child (s.step (.eof child)).1 (.eof child) (s.step (.eof child)).2 := by
  unfold step
  dsimp only
  split
  · exact .quiet rfl
  · rename_i r hrelay
    split_ifs
    · unfold eof
      dsimp only
      split
      · exact .quiet rfl
      · split_ifs with hrunning
        · exact .quiet rfl
        · exact .cleared hrunning rfl
    · exact .quiet rfl

lemma HoldsNewest.relay_moves {s' : ProgressRelays} {child : ℕ} {op : Op} {deed : Deed}
    (h : HoldsNewest past s) (hmoves : RelayMoves s child s' op deed) :
    HoldsNewest (past ++ [deed]) s' := by
  intro session hslot
  rw [newest_snoc]
  cases hmoves with
  | quiet hsame => exact h session (hsame ▸ hslot)
  | took _ _ _ hnone =>
    rw [hnone] at hslot
    cases hslot
  | cleared _ hnone =>
    rw [hnone] at hslot
    cases hslot

lemma HoldsNewest.step (h : HoldsNewest past s) (op : Op) :
    HoldsNewest (past ++ [(s.step op).2]) (s.step op).1 := by
  cases op with
  | other op =>
    intro session hslot
    rw [newest_snoc]
    cases hstores : s.stores op with
    | none =>
      simp only [ProgressRelays.step, hstores] at hslot ⊢
      exact h session (slot_of_stores_none hstores hslot)
    | some stored =>
      simp only [ProgressRelays.step, hstores] at hslot ⊢
      have heq := (stores_eq_some hstores).symm.trans hslot
      rw [Option.some.inj heq]
  | line child line unpinned => exact h.relay_moves (s.line_moves child line unpinned)
  | proceed child => exact h.relay_moves (s.proceed_moves child)
  | eof child => exact h.relay_moves (s.eof_moves child)

/-- Another thread's step is no relay's. -/
lemma other_deed (s : ProgressRelays) (op : SessionSlot.Op) :
    (s.step (.other op)).2 = .quiet ∨ ∃ child, (s.step (.other op)).2 = .stored child := by
  unfold step
  dsimp only
  split
  · exact Or.inl rfl
  · exact Or.inr ⟨_, rfl⟩

/-- What is not taken in `stop_session` does not run. -/
lemma RelayMoves.not_running {s' : ProgressRelays} {child child' : ℕ} {op : Op} {deed : Deed}
    (hmoves : RelayMoves s child s' op deed) (hop : ∀ c, op ≠ .proceed c)
    (hdeed : deed = .took child' session ∨ deed = .cleared child' session) :
    session.child ∉ s.slots.running := by
  cases hmoves with
  | quiet => rcases hdeed with hdeed | hdeed <;> cases hdeed
  | took => exact absurd rfl (hop child)
  | cleared hexited =>
    rcases hdeed with hdeed | hdeed
    · cases hdeed
    · obtain ⟨-, rfl⟩ := Deed.cleared.inj hdeed
      exact hexited

/-- A relay that comes to the take takes what is in the slot. -/
lemma took_of_stopping {child : ℕ} {r : RelayThread} {last : Bool}
    (hrelay : s.relay child = some r) (hphase : r.phase = .stopping last)
    (hslot : s.slots.slot = some session) : (s.step (.proceed child)).2 = .took child session := by
  simp only [step, hrelay, proceed, hphase, hslot]

/-- A step stops only the relay's own child exactly if that child is the newest, or none runs. -/
lemma HoldsNewest.stopsOwn_iff (h : HoldsNewest past s) (op : Op) :
    StopsOwn s op ↔ OwnIsNewest s past op := by
  cases op with
  | other op =>
    refine iff_of_true (fun child session hdeed => ?_) trivial
    rcases s.other_deed op with hquiet | ⟨stored, hstored⟩
    · rw [hquiet] at hdeed
      rcases hdeed with hdeed | hdeed <;> cases hdeed
    · rw [hstored] at hdeed
      rcases hdeed with hdeed | hdeed <;> cases hdeed
  | line child line unpinned =>
    refine iff_of_true (fun child' session hdeed hrunning => ?_) trivial
    exact absurd hrunning ((s.line_moves child line unpinned).not_running (by simp) hdeed)
  | eof child =>
    refine iff_of_true (fun child' session hdeed hrunning => ?_) trivial
    exact absurd hrunning ((s.eof_moves child).not_running (by simp) hdeed)
  | proceed child =>
    constructor
    · intro hown r last hrelay hphase
      cases hslot : s.slots.slot with
      | none =>
        right
        intro other hother
        rw [SessionSlot.InSlot, hslot] at hother
        cases hother
      | some session =>
        by_cases hrunning : session.child ∈ s.slots.running
        · have htook := took_of_stopping hrelay hphase hslot
          have heq := hown child session (Or.inl htook) hrunning
          exact Or.inl (heq ▸ h session hslot)
        · right
          intro other hother
          rw [SessionSlot.InSlot, hslot] at hother
          obtain rfl := Option.some.inj hother
          exact hrunning
    · intro hnewest child' session hdeed hrunning
      have hmoves := s.proceed_moves child
      rcases hdeed with hdeed | hdeed
      · rw [hdeed] at hmoves
        cases hmoves with
        | took hrelay hphase hslot _ =>
          rcases hnewest _ _ hrelay hphase with hnew | hvacant
          · exact Option.some.inj ((h session hslot).symm.trans hnew)
          · exact absurd hrunning (hvacant _ (by rw [SessionSlot.InSlot, hslot]; rfl))
      · rw [hdeed] at hmoves
        cases hmoves with
        | cleared hexited _ => exact absurd hrunning hexited

/-! ### Runs -/

lemma holdsNewest_after (ops : List Op) : HoldsNewest (deeds ops) (after ops) := by
  refine Trace.always (I := fun ops s => HoldsNewest (deeds ops) s) ?_
    fun before op hbefore => ?_
  · intro session hslot
    cases hslot
  · rw [deeds, Trace.outputs_snoc]
    exact hbefore.step op

/-- **A stale relay never ends a newer child**, in a run of the threads and the relays, exactly if
a relay comes to stop the session only while its own child is the one stored last, or while no
child runs in the slot. -/
theorem stopsOwn_iff_newest (ops : List Op) :
    Trace.Each (fun before => StopsOwn (after before)) ops ↔
      Trace.Each (fun before => OwnIsNewest (after before) (deeds before)) ops :=
  Trace.each_congr fun before op _ => (holdsNewest_after before).stopsOwn_iff op

/-- A thread launches a child. -/
def launched (thread : ℕ) (plan : LinkPlan) : List Op :=
  [.other (.launch thread plan), .other (.proceed thread true), .other (.proceed thread true),
    .other (.proceed thread true)]

/-- A dial-back is stopped and armed again on the same epoch, and then a line of the first child
is read: the peer hung up on it. -/
def rearmedDialBack : List Op :=
  launched 0 ⟨"192.168.1.9:42110", true, some 9⟩ ++
    [.other (.stop 0), .other (.proceed 0 true), .other (.proceed 0 true)] ++
    launched 0 ⟨"192.168.1.9:42110", true, some 9⟩ ++
    [.line 0 "THEKVM_STATUS ended peer disconnected 9".toList false]

/-- The relay of the first child stops the second. -/
theorem stale_relay_stops_newer :
    ¬Trace.Each (fun before => StopsOwn (after before)) (rearmedDialBack ++ [.proceed 0]) := by
  intro h
  have hown := h rearmedDialBack (.proceed 0) (List.prefix_refl _) 0
    ⟨1, ⟨"192.168.1.9:42110", true, some 9⟩⟩
  revert hown
  decide

end ProgressRelays

end TheKvm

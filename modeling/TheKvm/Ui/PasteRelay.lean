import TheKvm.Lib.Trace
import TheKvm.Protocol.Control

/-!
The clipboard relay of the desktop app: the thread that owns the clipboard and the thread that
takes the peer's pastes.

The two share a queue of pastes and a counter of the local copies that were offered. Each input
lets one of them take its next step; the answers of the daemon and the outcome of an offer come
with it.
-/

namespace TheKvm

/-- A paste with all its chunks, and how many local copies had been offered when the first of
them was fetched. -/
structure FetchedPaste where
  kind : ClipboardKind
  payload : List Char
  begun : ℕ
  deriving DecidableEq

/-- Where `clipboard_take_loop` is: at its top, at a poll without a wait or with one, behind the
first chunk, behind the counter, or behind the comparison. -/
inductive TakePc
  | idle
  | off
  | polling
  | fetched (first : ClipboardUpdate) (begun : ℕ)
  | gathering (first : ClipboardUpdate) (begun : ℕ) (epoch : UInt64) (chunks : List (List Char))
  | sending (paste : FetchedPaste)
  deriving DecidableEq

/-- When the paste under way was begun. -/
def TakePc.begun : TakePc → Option ℕ
  | .fetched _ begun | .gathering _ begun _ _ => some begun
  | .sending paste => some paste.begun
  | _ => none

/-- Where the loop of `spawn_clipboard_relay` is: applying what is queued, at its wait, at the
text, at the image, behind both, or dropping what is queued. -/
inductive RelayPc
  | applying
  | waiting
  | texting
  | imaging (offered : Bool)
  | finishing (offered : Bool)
  | draining
  deriving DecidableEq

/-- Between the success of an offer and the end of its drain. -/
def RelayPc.window : RelayPc → Bool
  | .imaging offered | .finishing offered => offered
  | .draining => true
  | _ => false

structure PasteRelay where
  /-- `CLIPBOARD_SYNC_ENABLED` -/
  enabled : Bool
  /-- `CLIPBOARD_OFFER_EPOCH` -/
  epoch : UInt64
  queue : List FetchedPaste
  lastSeenRevision : ℕ
  take : TakePc
  relay : RelayPc
  /-- the local copies that were offered -/
  offersMade : ℕ
  deriving DecidableEq

/-- What `clipboard_poll_once` brings: the update, and what a daemon that does not report the
setting says of it when asked, if it is asked. -/
structure PollAnswer where
  update : Option ClipboardUpdate
  legacy : Option Bool

namespace PasteRelay

/-- The next step of one thread, with what it meets: an answer, or whether there is a local copy
and the offer of it succeeds. -/
inductive Op
  | take (answer : PollAnswer)
  | relay (offer : Option Bool)

/-- What became of a paste. -/
inductive Deed
  | quiet
  | kept (paste : FetchedPaste)
  | superseded (paste : FetchedPaste)
  | applied (paste : FetchedPaste)
  | discarded (paste : FetchedPaste)
  deriving DecidableEq

def init (enabled : Bool) : PasteRelay := ⟨enabled, 0, [], 0, .idle, .applying, 0⟩

/-- `refresh_clipboard_enabled`: what the update reports, else what the daemon says when asked. -/
def refreshEnabled (s : PasteRelay) (update : ClipboardUpdate) (legacy : Option Bool) :
    PasteRelay :=
  { s with enabled := update.enabled.getD (legacy.getD s.enabled) }

/-- The first chunk is there. -/
def begin (s : PasteRelay) (first : ClipboardUpdate) : PasteRelay :=
  if first.revision = 0 ∨ first.revision ≤ s.lastSeenRevision ∨ first.totalChunks = 0 then
    { s with take := .idle }
  else { s with take := .fetched first s.offersMade }

/-- The paste is dropped if the counter moved since the first chunk. -/
def compare (s : PasteRelay) (revision : ℕ) (epoch : UInt64) (paste : FetchedPaste) :
    PasteRelay × Deed :=
  if s.epoch ≠ epoch then
    ({ s with lastSeenRevision := revision, take := .idle }, .superseded paste)
  else ({ s with lastSeenRevision := revision, take := .sending paste }, .kept paste)

/-- `clipboard_take_loop`. -/
def takeStep (s : PasteRelay) (answer : PollAnswer) : PasteRelay × Deed :=
  match s.take with
  | .idle => ({ s with take := if s.enabled then .polling else .off }, .quiet)
  | .off =>
    match answer.update with
    | none => ({ s with take := .idle }, .quiet)
    | some update =>
      ({ s.refreshEnabled update answer.legacy with
          lastSeenRevision := max s.lastSeenRevision update.revision
          take := .idle }, .quiet)
  | .polling =>
    match answer.update with
    | none => ({ s with take := .idle }, .quiet)
    | some first => ((s.refreshEnabled first answer.legacy).begin first, .quiet)
  | .fetched first begun =>
    ({ s with take := .gathering first begun s.epoch [first.data] }, .quiet)
  | .gathering first begun epoch chunks =>
    if chunks.length < first.totalChunks then
      match answer.update with
      | none => ({ s with take := .idle }, .quiet)
      | some update =>
        if update.revision = first.revision ∧ update.index = chunks.length then
          ({ s with take := .gathering first begun epoch (chunks ++ [update.data]) }, .quiet)
        else ({ s with take := .idle }, .quiet)
    else s.compare first.revision epoch ⟨first.kind, chunks.flatten, begun⟩
  | .sending paste => ({ s with queue := s.queue ++ [paste], take := .idle }, .quiet)

/-- `offer_local_clipboard` of a local copy, if there is one. -/
def offerLocal (s : PasteRelay) (offer : Option Bool) : PasteRelay × Bool :=
  if offer = some true then ({ s with offersMade := s.offersMade + 1 }, true) else (s, false)

/-- The loop of `spawn_clipboard_relay`. -/
def relayStep (s : PasteRelay) (offer : Option Bool) : PasteRelay × Deed :=
  match s.relay with
  | .applying =>
    match s.queue with
    | [] => ({ s with relay := .waiting }, .quiet)
    | paste :: rest => ({ s with queue := rest }, .applied paste)
  | .waiting => ({ s with relay := if s.enabled then .texting else .applying }, .quiet)
  | .texting =>
    let (s, offered) := s.offerLocal offer
    ({ s with relay := .imaging offered }, .quiet)
  | .imaging offered =>
    let (s, again) := s.offerLocal offer
    ({ s with relay := .finishing (offered || again) }, .quiet)
  | .finishing offered =>
    if offered then ({ s with epoch := s.epoch + 1, relay := .draining }, .quiet)
    else ({ s with relay := .applying }, .quiet)
  | .draining =>
    match s.queue with
    | [] => ({ s with relay := .applying }, .quiet)
    | paste :: rest => ({ s with queue := rest }, .discarded paste)

def step (s : PasteRelay) : Op → PasteRelay × Deed
  | .take answer => s.takeStep answer
  | .relay offer => s.relayStep offer

section

variable (enabled : Bool)

/-- The relay behind the steps of a run. -/
abbrev after (ops : List Op) : PasteRelay := Trace.final step (init enabled) ops

/-- What came of the steps. -/
abbrev deeds (ops : List Op) : List Deed := Trace.outputs step (init enabled) ops

/-! ### What a paste and a copy owe each other -/

/-- No paste is in the hand of the take thread, or in the queue. -/
def Settled (s : PasteRelay) : Prop := (∀ paste, s.take ≠ .sending paste) ∧ s.queue = []

/-- A paste is applied only if no copy was offered since its first chunk was fetched, and when
none is on its way all that were fetched since the last copy were applied. -/
structure Respectful (ops : List Op) : Prop where
  fresh : Trace.Each (fun before op => ∀ paste,
    ((after enabled before).step op).2 = .applied paste →
      (after enabled before).offersMade = paste.begun) ops
  landed : Settled (after enabled ops) → ∀ paste,
    Deed.kept paste ∈ deeds enabled ops ∨ Deed.superseded paste ∈ deeds enabled ops →
      paste.begun = (after enabled ops).offersMade → Deed.applied paste ∈ deeds enabled ops

/-- A paste is dropped at the comparison only if a copy was offered since its first chunk was
fetched, and is queued between the success of an offer and the end of its drain exactly if one
was. -/
def TimelyTake (s : PasteRelay) : TakePc → Prop
  | .gathering first begun epoch chunks =>
    ¬chunks.length < first.totalChunks → s.epoch ≠ epoch → begun < s.offersMade
  | .sending paste => paste.begun < s.offersMade ↔ s.relay.window = true
  | _ => True

instance (s : PasteRelay) : DecidablePred s.TimelyTake
  | .idle | .off | .polling | .fetched _ _ => .isTrue trivial
  | .gathering _ _ _ _ => inferInstanceAs (Decidable (_ → _ → _))
  | .sending _ => inferInstanceAs (Decidable (_ ↔ _))

def Timely (s : PasteRelay) : Op → Prop
  | .relay _ => True
  | .take _ => s.TimelyTake s.take

instance (s : PasteRelay) : DecidablePred s.Timely
  | .relay _ => .isTrue trivial
  | .take _ => inferInstanceAs (Decidable (s.TimelyTake s.take))

end

/-! ### One step -/

/-- What a timely step does: the take thread walks, drops, keeps or queues; the relay turns,
offers, applies or drops. -/
inductive Moves (s s' : PasteRelay) : Deed → Prop
  | walked (htake : ∀ paste, s.take ≠ .sending paste) (hrelay : s'.relay = s.relay)
      (hbegun : ∀ begun, s'.take.begun = some begun →
        s.take.begun = some begun ∨ begun = s.offersMade)
      (hqueue : s'.queue = s.queue) (hoffers : s'.offersMade = s.offersMade) : Moves s s' .quiet
  | superseded {paste : FetchedPaste} (hstale : paste.begun < s.offersMade)
      (htake : ∀ paste, s.take ≠ .sending paste) (htake' : s'.take = .idle)
      (hrelay : s'.relay = s.relay) (hqueue : s'.queue = s.queue)
      (hoffers : s'.offersMade = s.offersMade) : Moves s s' (.superseded paste)
  | kept {paste : FetchedPaste} (hbegun : s.take.begun = some paste.begun)
      (htake : ∀ paste, s.take ≠ .sending paste) (htake' : s'.take = .sending paste)
      (hrelay : s'.relay = s.relay) (hqueue : s'.queue = s.queue)
      (hoffers : s'.offersMade = s.offersMade) : Moves s s' (.kept paste)
  | queued {paste : FetchedPaste} (htake : s.take = .sending paste)
      (hwindow : paste.begun < s.offersMade ↔ s.relay.window = true) (htake' : s'.take = .idle)
      (hrelay : s'.relay = s.relay) (hqueue : s'.queue = s.queue ++ [paste])
      (hoffers : s'.offersMade = s.offersMade) : Moves s s' .quiet
  | turned (htake : s'.take = s.take) (hqueue : s'.queue = s.queue)
      (hoffers : s'.offersMade = s.offersMade)
      (hwindow : s'.relay.window = s.relay.window ∨ s.queue = []) : Moves s s' .quiet
  | offered (htake : s'.take = s.take) (hqueue : s'.queue = s.queue)
      (hoffers : s'.offersMade = s.offersMade + 1) (hwindow : s'.relay.window = true) :
      Moves s s' .quiet
  | applied {paste : FetchedPaste} (htake : s'.take = s.take) (hqueue : s.queue = paste :: s'.queue)
      (hoffers : s'.offersMade = s.offersMade) (hrelay : s'.relay = s.relay)
      (hwindow : s.relay.window = false) : Moves s s' (.applied paste)
  | discarded {paste : FetchedPaste} (htake : s'.take = s.take)
      (hqueue : s.queue = paste :: s'.queue) (hoffers : s'.offersMade = s.offersMade)
      (hrelay : s'.relay = s.relay) (hwindow : s.relay.window = true) :
      Moves s s' (.discarded paste)

variable {s s' : PasteRelay} {deed : Deed}

lemma moves_take {answer : PollAnswer} (h : Timely s (.take answer)) :
    Moves s (s.takeStep answer).1 (s.takeStep answer).2 := by
  replace h : s.TimelyTake s.take := h
  unfold takeStep
  cases htake : s.take with
  | idle =>
    refine .walked (by simp [htake]) rfl (fun begun hbegun => ?_) rfl rfl
    dsimp only at hbegun
    split_ifs at hbegun <;> cases hbegun
  | off =>
    cases hupdate : answer.update with
    | none => exact .walked (by simp [htake]) rfl (fun _ hbegun => by cases hbegun) rfl rfl
    | some update => exact .walked (by simp [htake]) rfl (fun _ hbegun => by cases hbegun) rfl rfl
  | polling =>
    cases hupdate : answer.update with
    | none => exact .walked (by simp [htake]) rfl (fun _ hbegun => by cases hbegun) rfl rfl
    | some first =>
      unfold refreshEnabled begin
      dsimp only
      split_ifs
      · exact .walked (by simp [htake]) rfl (fun _ hbegun => by cases hbegun) rfl rfl
      · exact .walked (by simp [htake]) rfl
          (fun _ hbegun => Or.inr (Option.some.inj hbegun).symm) rfl rfl
  | fetched first begun =>
    exact .walked (by simp [htake]) rfl (fun _ hbegun => Or.inl (by rw [htake]; exact hbegun))
      rfl rfl
  | gathering first begun epoch chunks =>
    rw [htake] at h
    dsimp only
    split_ifs with hmore
    · cases hupdate : answer.update with
      | none => exact .walked (by simp [htake]) rfl (fun _ hbegun => by cases hbegun) rfl rfl
      | some update =>
        dsimp only
        split_ifs
        · exact .walked (by simp [htake]) rfl
            (fun _ hbegun => Or.inl (by rw [htake]; exact hbegun)) rfl rfl
        · exact .walked (by simp [htake]) rfl (fun _ hbegun => by cases hbegun) rfl rfl
    · unfold compare
      split_ifs with hepoch
      · exact .superseded (h hmore hepoch) (by simp [htake]) rfl rfl rfl rfl
      · exact .kept (by rw [htake]; rfl) (by simp [htake]) rfl rfl rfl rfl
  | sending paste =>
    rw [htake] at h
    exact .queued htake h rfl rfl rfl rfl

lemma moves_relay (s : PasteRelay) (offer : Option Bool) :
    Moves s (s.relayStep offer).1 (s.relayStep offer).2 := by
  unfold relayStep
  cases hrelay : s.relay with
  | applying =>
    cases hqueue : s.queue with
    | nil => exact .turned rfl hqueue.symm rfl (Or.inr hqueue)
    | cons paste rest => exact .applied rfl hqueue rfl hrelay.symm (by rw [hrelay]; rfl)
  | waiting =>
    refine .turned rfl rfl rfl (Or.inl ?_)
    dsimp only
    rw [hrelay]
    split <;> rfl
  | texting =>
    by_cases hoffer : offer = some true
    · simp only [offerLocal, if_pos hoffer]
      exact .offered rfl rfl rfl rfl
    · simp only [offerLocal, if_neg hoffer]
      exact .turned rfl rfl rfl (Or.inl (by rw [hrelay]; rfl))
  | imaging offered =>
    by_cases hoffer : offer = some true
    · simp only [offerLocal, if_pos hoffer]
      exact .offered rfl rfl rfl (Bool.or_true offered)
    · simp only [offerLocal, if_neg hoffer]
      refine .turned rfl rfl rfl (Or.inl ?_)
      rw [hrelay]
      exact Bool.or_false offered
  | finishing offered =>
    cases offered with
    | true => exact .turned rfl rfl rfl (Or.inl (by rw [hrelay]; rfl))
    | false => exact .turned rfl rfl rfl (Or.inl (by rw [hrelay]; rfl))
  | draining =>
    cases hqueue : s.queue with
    | nil => exact .turned rfl hqueue.symm rfl (Or.inr hqueue)
    | cons paste rest => exact .discarded rfl hqueue rfl hrelay.symm (by rw [hrelay]; rfl)

lemma moves_step {op : Op} (h : Timely s op) : Moves s (s.step op).1 (s.step op).2 := by
  cases op with
  | take answer => exact moves_take h
  | relay offer => exact moves_relay s offer

/-- What is under way was begun before now, and what is queued waits for a drain exactly if a copy
was offered since. -/
structure InOrder (s : PasteRelay) : Prop where
  hand : ∀ begun, s.take.begun = some begun → begun ≤ s.offersMade
  queued : ∀ paste ∈ s.queue, paste.begun ≤ s.offersMade ∧
    (paste.begun < s.offersMade ↔ s.relay.window = true)

lemma InOrder.moves (h : InOrder s) (hmoves : Moves s s' deed) : InOrder s' := by
  cases hmoves with
  | walked htake hrelay hbegun hqueue hoffers =>
    refine ⟨fun begun hb => ?_, by rw [hqueue, hrelay, hoffers]; exact h.queued⟩
    rw [hoffers]
    rcases hbegun begun hb with hsame | rfl
    · exact h.hand begun hsame
    · exact le_rfl
  | superseded hstale htake htake' hrelay hqueue hoffers =>
    refine ⟨fun begun hb => ?_, by rw [hqueue, hrelay, hoffers]; exact h.queued⟩
    rw [htake'] at hb
    cases hb
  | @kept paste hbegun htake htake' hrelay hqueue hoffers =>
    refine ⟨fun begun hb => ?_, by rw [hqueue, hrelay, hoffers]; exact h.queued⟩
    rw [htake'] at hb
    obtain rfl := Option.some.inj hb
    rw [hoffers]
    exact h.hand _ hbegun
  | @queued paste htake hwindow htake' hrelay hqueue hoffers =>
    constructor
    · intro begun hb
      rw [htake'] at hb
      cases hb
    · intro p hp
      rw [hrelay, hoffers]
      rw [hqueue] at hp
      rcases List.mem_append.mp hp with hp | hp
      · exact h.queued p hp
      · obtain rfl := List.mem_singleton.mp hp
        exact ⟨h.hand _ (by rw [htake]; rfl), hwindow⟩
  | turned htake hqueue hoffers hwindow =>
    refine ⟨by rw [htake, hoffers]; exact h.hand, fun p hp => ?_⟩
    rw [hqueue] at hp
    rw [hoffers]
    rcases hwindow with hsame | hnil
    · rw [hsame]
      exact h.queued p hp
    · rw [hnil] at hp
      cases hp
  | offered htake hqueue hoffers hwindow =>
    constructor
    · intro begun hb
      rw [htake] at hb
      have := h.hand begun hb
      omega
    · intro p hp
      rw [hqueue] at hp
      have := (h.queued p hp).1
      rw [hoffers, hwindow]
      exact ⟨by omega, iff_of_true (by omega) rfl⟩
  | applied htake hqueue hoffers hrelay hwindow =>
    refine ⟨by rw [htake, hoffers]; exact h.hand, fun p hp => ?_⟩
    rw [hoffers, hrelay]
    exact h.queued p (by rw [hqueue]; exact List.mem_cons_of_mem _ hp)
  | discarded htake hqueue hoffers hrelay hwindow =>
    refine ⟨by rw [htake, hoffers]; exact h.hand, fun p hp => ?_⟩
    rw [hoffers, hrelay]
    exact h.queued p (by rw [hqueue]; exact List.mem_cons_of_mem _ hp)

/-- What is applied is newer than the copies. -/
lemma InOrder.applied_fresh (h : InOrder s) {paste : FetchedPaste}
    (hmoves : Moves s s' (.applied paste)) : s.offersMade = paste.begun := by
  cases hmoves with
  | applied htake hqueue hoffers hrelay hwindow =>
    obtain ⟨hle, hstale⟩ := h.queued paste (by rw [hqueue]; exact List.mem_cons_self)
    have : ¬paste.begun < s.offersMade := fun hlt => by
      rw [hstale.mp hlt] at hwindow
      cases hwindow
    omega

/-- Where a paste that was fetched is: older than a copy, in hand, queued, or applied. -/
def Accounted (s : PasteRelay) (deeds : List Deed) (paste : FetchedPaste) : Prop :=
  paste.begun < s.offersMade ∨ s.take = .sending paste ∨ paste ∈ s.queue ∨
    Deed.applied paste ∈ deeds

lemma Moves.offersMade_le (hmoves : Moves s s' deed) : s.offersMade ≤ s'.offersMade := by
  cases hmoves <;> omega

/-- A paste that is dropped by the relay is older than a copy. -/
lemma Accounted.moves {deeds : List Deed} {paste : FetchedPaste} (h : Accounted s deeds paste)
    (horder : InOrder s) (hmoves : Moves s s' deed) : Accounted s' (deeds ++ [deed]) paste := by
  rcases h with hstale | htaken | hqueued | happlied
  · exact Or.inl (hstale.trans_le hmoves.offersMade_le)
  · cases hmoves with
    | walked htake => exact absurd htaken (htake paste)
    | superseded _ htake => exact absurd htaken (htake paste)
    | kept _ htake => exact absurd htaken (htake paste)
    | queued htake _ _ _ hqueue =>
      rw [htake] at htaken
      obtain rfl := TakePc.sending.inj htaken
      exact Or.inr (Or.inr (Or.inl (by simp [hqueue])))
    | turned htake => exact Or.inr (Or.inl (htake ▸ htaken))
    | offered htake => exact Or.inr (Or.inl (htake ▸ htaken))
    | applied htake => exact Or.inr (Or.inl (htake ▸ htaken))
    | discarded htake => exact Or.inr (Or.inl (htake ▸ htaken))
  · cases hmoves with
    | walked _ _ _ hqueue => exact Or.inr (Or.inr (Or.inl (hqueue ▸ hqueued)))
    | superseded _ _ _ _ hqueue => exact Or.inr (Or.inr (Or.inl (hqueue ▸ hqueued)))
    | kept _ _ _ _ hqueue => exact Or.inr (Or.inr (Or.inl (hqueue ▸ hqueued)))
    | queued _ _ _ _ hqueue =>
      refine Or.inr (Or.inr (Or.inl ?_))
      rw [hqueue]
      exact List.mem_append_left _ hqueued
    | turned _ hqueue => exact Or.inr (Or.inr (Or.inl (hqueue ▸ hqueued)))
    | offered _ hqueue => exact Or.inr (Or.inr (Or.inl (hqueue ▸ hqueued)))
    | applied _ hqueue =>
      rw [hqueue] at hqueued
      rcases List.mem_cons.mp hqueued with rfl | hrest
      · exact Or.inr (Or.inr (Or.inr (by simp)))
      · exact Or.inr (Or.inr (Or.inl hrest))
    | discarded _ hqueue hoffers _ hwindow =>
      have hstale := (horder.queued paste hqueued).2.mpr hwindow
      rw [hqueue] at hqueued
      rcases List.mem_cons.mp hqueued with rfl | hrest
      · exact Or.inl (hoffers ▸ hstale)
      · exact Or.inr (Or.inr (Or.inl hrest))
  · exact Or.inr (Or.inr (Or.inr (List.mem_append_left _ happlied)))

/-- All that was fetched is accounted for. -/
def AllAccounted (deeds : List Deed) (s : PasteRelay) : Prop :=
  ∀ paste, Deed.kept paste ∈ deeds ∨ Deed.superseded paste ∈ deeds → Accounted s deeds paste

lemma AllAccounted.moves {deeds : List Deed} (h : AllAccounted deeds s) (horder : InOrder s)
    (hmoves : Moves s s' deed) : AllAccounted (deeds ++ [deed]) s' := by
  intro paste hpaste
  by_cases hbefore : Deed.kept paste ∈ deeds ∨ Deed.superseded paste ∈ deeds
  · exact (h paste hbefore).moves horder hmoves
  · rw [not_or] at hbefore
    rcases hpaste with hkept | hsuperseded
    · obtain rfl : Deed.kept paste = deed := by simpa [hbefore.1] using hkept
      cases hmoves with
      | kept _ _ htake => exact Or.inr (Or.inl htake)
    · obtain rfl : Deed.superseded paste = deed := by simpa [hbefore.2] using hsuperseded
      cases hmoves with
      | superseded hstale _ _ _ _ hoffers => exact Or.inl (hoffers ▸ hstale)

/-! ### Runs -/

variable {enabled : Bool} {ops : List Op}

lemma inOrder_after (h : Trace.Each (fun before => Timely (after enabled before)) ops) :
    InOrder (after enabled ops) ∧ AllAccounted (deeds enabled ops) (after enabled ops) := by
  refine Trace.invariant (I := fun ops s => InOrder s ∧ AllAccounted (deeds enabled ops) s) ?_
    (fun before op hbefore htimely => ?_) h
  · refine ⟨⟨fun _ hbegun => ?_, fun _ hpaste => ?_⟩, ?_⟩
    · cases hbegun
    · cases hpaste
    · rintro paste (hpaste | hpaste) <;> cases hpaste
  · obtain ⟨horder, hall⟩ := hbefore
    have hmoves := moves_step htimely
    rw [deeds, Trace.outputs_snoc]
    exact ⟨horder.moves hmoves, hall.moves horder hmoves⟩

def letterUpdate : ClipboardUpdate := ⟨1, .text, 1, 1, 0, ['a'], 0, 0, some true⟩

/-- The take thread comes to the comparison with a paste of one chunk. -/
def fetchLetter : List Op :=
  [.take ⟨none, none⟩, .take ⟨some letterUpdate, none⟩, .take ⟨none, none⟩]

/-- The relay offers a text, and drops what is queued. -/
def offerText : List Op :=
  [.relay none, .relay none, .relay (some true), .relay none, .relay none, .relay none]

/-- A paste is compared, a text is offered, and the paste is queued behind the drain. -/
def sentLate : List Op :=
  fetchLetter ++ .take ⟨none, none⟩ :: offerText ++ [.take ⟨none, none⟩]

/-- An offer succeeds, and a paste is fetched before the counter moves. -/
def fetchedEarly : List Op :=
  offerText.take 4 ++ fetchLetter ++ [.relay none, .take ⟨none, none⟩]

end PasteRelay

end TheKvm

import Mathlib.Data.String.Basic
import TheKvm.Daemon.LinkMemory
import TheKvm.Daemon.Waiters
import TheKvm.Lib.Bytes
import TheKvm.Protocol.PeerLookup

/-!
The pairing ceremony, on the station.

Each request runs in a task of its own. It is challenged, and registered for the local user if
the code on the station's screen did not come with it; its peer is pinned once the other side
has confirmed and the user here has allowed it. The tasks, the peers' messages and the user's
decisions interleave.
-/

namespace TheKvm.Ceremonies

open Approvals

/-! ### Codes -/

def pairingCodeRotationSecs : ℕ := 1800

/-- `{value:06}`. -/
def sixDigits (value : ℕ) : String := String.ofList ((Nat.toDigits 10 value).leftpad 6 '0')

section

variable (sha256 : List UInt8 → List UInt8)

/-- The code on the station's screen. -/
def stationPairingCode (identityFingerprintHex : String) (unixSecs : ℕ) : String :=
  let window := unixSecs / pairingCodeRotationSecs
  let digest := sha256 (Text.utf8 "thekvm-pairing-code-v1".toList ++
    Text.utf8 (identity identityFingerprintHex).toList ++ Bytes.toBe 8 window)
  sixDigits (Bytes.ofBe (digest.take 4) % 1000000)

/-- The current window and one on each side. -/
def stationCodeValid (identityFingerprintHex code : String) (unixSecs : ℕ) : Bool :=
  let code := Text.trim code
  if Text.len code ≠ 6 ∨ code.toList.all Char.isDigit = false then false
  else
    let current := unixSecs / pairingCodeRotationSecs
    [current - 1, current, current + 1].any fun window =>
      stationPairingCode sha256 identityFingerprintHex (window * pairingCodeRotationSecs) == code

/-- The code both screens show, whichever side asks for it. -/
def verificationCode (localFingerprintHex peerFingerprintHex : String) : String :=
  let own := identity localFingerprintHex
  let peer := identity peerFingerprintHex
  let (first, second) := if own ≤ peer then (own, peer) else (peer, own)
  let digest := sha256 (Text.utf8 "THEKVM-PAIRING-CODE-V1".toList ++ Text.utf8 first.toList ++
    [0] ++ Text.utf8 second.toList)
  sixDigits (Bytes.ofBe (digest.take 6) % 1000000)

/-! ### What the codes are -/

lemma sixDigits_digits {n : ℕ} (h : n < 1000000) :
    (sixDigits n).toList.length = 6 ∧ ∀ c ∈ (sixDigits n).toList, c.isDigit = true := by
  have hlen : (Nat.toDigits 10 n).length ≤ 6 :=
    (Nat.length_toDigits_le_iff (by omega) (by omega)).mpr h
  rw [sixDigits, String.toList_ofList, List.leftpad]
  refine ⟨?_, fun c hc => ?_⟩
  · rw [List.length_append, List.length_replicate]
    omega
  · rcases List.mem_append.mp hc with hc | hc
    · obtain rfl := List.eq_of_mem_replicate hc
      rfl
    · exact Nat.isDigit_of_mem_toDigits (by omega) (by omega) hc

lemma digit_bounds {c : Char} (h : c.isDigit = true) : 48 ≤ c.toNat ∧ c.toNat ≤ 57 := by
  simp only [Char.isDigit, Bool.and_eq_true, decide_eq_true_eq] at h
  exact ⟨UInt32.le_iff_toNat_le.mp h.1, UInt32.le_iff_toNat_le.mp h.2⟩

/-- A code reads as it is typed. -/
lemma code_plain {code : String} (hlen : code.toList.length = 6)
    (hdigits : ∀ c ∈ code.toList, c.isDigit = true) : Text.len code = 6 ∧ Text.trim code = code := by
  constructor
  · rw [Text.len_eq, Text.utf8Len_ascii, hlen]
    intro c hc
    have := digit_bounds (hdigits c hc)
    omega
  · refine Text.trim_eq_self fun c hc => ?_
    have := digit_bounds (hdigits c hc)
    rw [← Bool.not_eq_true]
    simp only [Text.isWhitespace, Bool.or_eq_true, Bool.and_eq_true, decide_eq_true_eq, beq_iff_eq]
    omega

/-- A typed code is accepted if it is that of the current window or of one beside it. -/
lemma stationCodeValid_iff {fingerprintHex code : String} {unixSecs : ℕ} :
    stationCodeValid sha256 fingerprintHex code unixSecs = true ↔
      ∃ window, window ≤ unixSecs / pairingCodeRotationSecs + 1 ∧
        unixSecs / pairingCodeRotationSecs ≤ window + 1 ∧
        Text.trim code =
          stationPairingCode sha256 fingerprintHex (window * pairingCodeRotationSecs) := by
  have hplain : ∀ t, Text.len (stationPairingCode sha256 fingerprintHex t) = 6 ∧
      (stationPairingCode sha256 fingerprintHex t).toList.all Char.isDigit = true := by
    intro t
    obtain ⟨hlen, hdigits⟩ := sixDigits_digits (Nat.mod_lt _ (by omega))
    exact ⟨(code_plain hlen hdigits).1, List.all_eq_true.mpr hdigits⟩
  rw [stationCodeValid]
  dsimp only
  generalize unixSecs / pairingCodeRotationSecs = current
  constructor
  · intro h
    split_ifs at h
    simp only [List.any_cons, List.any_nil, Bool.or_false, Bool.or_eq_true, beq_iff_eq] at h
    rcases h with h | h | h
    · exact ⟨current - 1, by omega, by omega, h.symm⟩
    · exact ⟨current, by omega, by omega, h.symm⟩
    · exact ⟨current + 1, by omega, by omega, h.symm⟩
  · rintro ⟨window, hle, hge, hcode⟩
    rw [if_neg]
    · simp only [List.any_cons, List.any_nil, Bool.or_false, Bool.or_eq_true, beq_iff_eq, hcode]
      have hcases : window = current - 1 ∨ window = current ∨ window = current + 1 := by omega
      rcases hcases with rfl | rfl | rfl
      · exact Or.inl rfl
      · exact Or.inr (Or.inl rfl)
      · exact Or.inr (Or.inr rfl)
    · obtain ⟨hlen, hdigits⟩ := hplain (window * pairingCodeRotationSecs)
      rw [hcode, hdigits]
      simp [hlen]

/-- The code on the screen is accepted until the window after its own is over. -/
lemma shown_code_valid (fingerprintHex : String) {shown typed : ℕ} (hle : shown ≤ typed)
    (hlt : typed < (shown / pairingCodeRotationSecs + 2) * pairingCodeRotationSecs) :
    stationCodeValid sha256 fingerprintHex (stationPairingCode sha256 fingerprintHex shown) typed
      = true := by
  have hpos : 0 < pairingCodeRotationSecs := by decide
  have hwindow : shown / pairingCodeRotationSecs * pairingCodeRotationSecs /
      pairingCodeRotationSecs = shown / pairingCodeRotationSecs := Nat.mul_div_cancel _ hpos
  refine (stationCodeValid_iff sha256).mpr ⟨shown / pairingCodeRotationSecs, ?_, ?_, ?_⟩
  · have := Nat.div_le_div_right (c := pairingCodeRotationSecs) hle
    omega
  · have := (Nat.div_lt_iff_lt_mul hpos).mpr hlt
    omega
  · obtain ⟨hlen, hdigits⟩ := sixDigits_digits
      (n := Bytes.ofBe ((sha256 (Text.utf8 "thekvm-pairing-code-v1".toList ++
        Text.utf8 (identity fingerprintHex).toList ++
        Bytes.toBe 8 (shown / pairingCodeRotationSecs))).take 4) % 1000000) (Nat.mod_lt _ (by omega))
    rw [stationPairingCode, stationPairingCode, hwindow]
    exact (code_plain hlen hdigits).2

/-- Both sides of a ceremony come to one code. -/
lemma verificationCode_comm (f g : String) :
    verificationCode sha256 f g = verificationCode sha256 g f := by
  have hsorted : (if identity f ≤ identity g then (identity f, identity g)
      else (identity g, identity f)) =
      if identity g ≤ identity f then (identity g, identity f) else (identity f, identity g) := by
    split_ifs with hfg hgf hgf
    · rw [le_antisymm hfg hgf]
    · rfl
    · rfl
    · exact absurd (le_of_not_ge hfg) hgf
  rw [verificationCode, verificationCode, hsorted]

end

/-! ### The ceremony -/

/-- A `PairRequest`, with the fingerprint of the certificate it came under. -/
structure PairingRequest where
  /-- `actual_peer_fingerprint`. -/
  peer : String
  nodeName : String
  claimedFingerprint : String
  pairingCode : Option String
  deriving DecidableEq

/-- What comes of the wait for the initiator's confirmation. -/
inductive Incoming
  | frame (message : WireMessage)
  | failed (error : String)
  | eof
  | timedOut
  | disconnected

/-- Where a task of `handle_pairing` is. -/
inductive Phase
  | registering
  | confirming
  | asking
  | approved
  | pinned
  | completed
  | failed
  deriving DecidableEq

/-- A task, with what it has heard and sent. -/
structure Ceremony where
  request : PairingRequest
  typedCodeAccepted : Bool
  /-- The ticket of its `PairingWaiter`. -/
  waiter : Option ℕ
  heard : Option WireMessage
  sent : List WireMessage
  phase : Phase
  deriving DecidableEq

namespace Ceremony

def send (c : Ceremony) (message : WireMessage) : Ceremony := { c with sent := c.sent ++ [message] }

/-- The peer is told why, and the task ends. -/
def rejected (c : Ceremony) (reason : String) : Ceremony :=
  { c.send (.reject reason) with phase := .failed }

end Ceremony

structure Station where
  queue : Queue String
  links : LinkMemory
  book : PeerBook
  ceremonies : List Ceremony

inductive Input
  | pass (ms : ℕ)
  /-- A request; the challenge gets written, or not. -/
  | request (request : PairingRequest) (unixSecs : ℕ) (written : Bool)
  /-- A task's turn. -/
  | register (i : ℕ)
  | read (i : ℕ) (incoming : Incoming)
  | resolve (i : ℕ)
  | finish (i : ℕ)
  | pin (i : ℕ) (disk : Disk)
  | accept (i : ℕ) (written : Bool)
  | abandon (i : ℕ)
  /-- The local user, through the control endpoint. -/
  | decide (fingerprintHex : String) (approved : Bool)
  | pinPeer (name fingerprintHex : String) (address : Option String) (disk : Disk)
  | unpin (fingerprintHex : String) (disk : Disk)
  | link (op : LinkOp)

/-- Whose turn it is. -/
def Input.task : Input → Option ℕ
  | .register i | .read i _ | .resolve i | .finish i | .pin i _ | .accept i _ | .abandon i => some i
  | _ => none

/-- What the ceremonies run with: hashes, the JSON of the book, the debug text of messages, and
who the station is. -/
structure Setting where
  sha256 : List UInt8 → List UInt8
  serde : SerdePeers
  debug : WireMessage → String
  localNodeName : String
  localFingerprint : String

variable (env : Setting)

/-- The start of a task, up to its challenge. -/
def Setting.challenged (request : PairingRequest) (unixSecs : ℕ) (written : Bool) : Ceremony :=
  if request.claimedFingerprint ≠ request.peer then
    Ceremony.rejected ⟨request, false, none, none, [], .registering⟩
      "pairing identity does not match the certificate"
  else
    let typed := request.pairingCode.any fun code =>
      stationCodeValid env.sha256 env.localFingerprint code unixSecs
    let code := verificationCode env.sha256 env.localFingerprint request.peer
    if written then
      Ceremony.send ⟨request, typed, none, none, [], if typed then .confirming else .registering⟩
        (.pairChallenge env.localNodeName env.localFingerprint (some code) typed)
    else ⟨request, typed, none, none, [], .failed⟩

/-- Why a confirmation is none, if there is something to tell the peer. -/
def Setting.refusal : Incoming → Option String
  | .frame (.reject reason) => some ("initiator aborted pairing: " ++ reason)
  | .frame (.pairConfirm fingerprint) =>
    if fingerprint = env.localFingerprint then none
    else some ("invalid pairing confirmation: " ++ env.debug (.pairConfirm fingerprint))
  | .frame other => some ("invalid pairing confirmation: " ++ env.debug other)
  | .failed error => some ("pairing stream failed: " ++ error)
  | .eof => some "peer closed pairing stream"
  | .timedOut => some "pairing confirmation timed out"
  | .disconnected => none

/-- The message behind an incoming frame. -/
def Incoming.message : Incoming → Option WireMessage
  | .frame message => some message
  | _ => none

/-- The frame that completes a pairing. -/
def accepted : WireMessage := .accepted false false none true true false false

namespace Station

def set (s : Station) (i : ℕ) (c : Ceremony) : Station :=
  { s with ceremonies := s.ceremonies.set i c }

def inQueue (s : Station) (op : Approvals.Op String) : Station :=
  { s with queue := (s.queue.step pairingApprovals op).1 }

/-- Drops a waiter at the end of its task. -/
def drop (s : Station) (c : Ceremony) : Station :=
  match c.waiter with
  | none => s
  | some ticket => s.inQueue (.drop ticket)

/-- Cancels a waiter, and drops it. -/
def cancel (s : Station) (c : Ceremony) : Station :=
  match c.waiter with
  | none => s
  | some ticket => (s.inQueue (.cancel ticket)).inQueue (.drop ticket)

/-- The confirmation is read, or the wait for it ends. -/
def read (s : Station) (i : ℕ) (c : Ceremony) (incoming : Incoming) : Station :=
  let c := { c with heard := incoming.message }
  match env.refusal incoming, incoming with
  | some reason, _ => (s.cancel c).set i (c.rejected reason)
  | none, .disconnected => (s.cancel c).set i { c with phase := .failed }
  | none, _ =>
    match c.waiter with
    | some ticket => (s.inQueue (.wait ticket)).set i { c with phase := .asking }
    | none => s.set i { c with phase := .approved }

/-- The local decision is there. -/
def finish (s : Station) (i : ℕ) (c : Ceremony) (ticket : ℕ) : Station :=
  match s.queue.step pairingApprovals (.finish ticket) with
  | (queue, .waited true) => { s with queue }.set i { c with phase := .approved }
  | (queue, .waited false) =>
    { s with queue }.set i (c.rejected "pairing was rejected or timed out locally")
  | (queue, _) => { s with queue }

/-- The peer is pinned, and its first link needs no second approval. -/
def pin (s : Station) (i : ℕ) (c : Ceremony) (disk : Disk) : Station :=
  match s.book.pin env.serde disk c.request.nodeName c.request.peer with
  | (book, .ok ()) =>
    { s with book, links := s.links.notePaired c.request.peer }.set i { c with phase := .pinned }
  | (book, .error _) => { s with book }.set i { c with phase := .failed }

/-- The turn of a task. -/
def turn (s : Station) (i : ℕ) (c : Ceremony) : Input → Station
  | .register _ =>
    if c.phase = .registering then
      match s.queue.step pairingApprovals (.register (pairingKey c.request.peer)) with
      | (queue, .registered ticket) =>
        { s with queue }.set i { c with waiter := some ticket, phase := .confirming }
      | (queue, .refused reason) => { s with queue }.set i (c.rejected reason)
      | (queue, _) => { s with queue }
    else s
  | .read _ incoming => if c.phase = .confirming then s.read env i c incoming else s
  | .resolve _ =>
    match c.phase, c.waiter with
    | .asking, some ticket => s.inQueue (.resolve ticket)
    | _, _ => s
  | .finish _ =>
    match c.phase, c.waiter with
    | .asking, some ticket => s.finish i c ticket
    | _, _ => s
  | .pin _ disk => if c.phase = .approved then s.pin env i c disk else s
  | .accept _ written =>
    if c.phase = .pinned then
      s.set i (if written then { c.send accepted with phase := .completed }
        else { c with phase := .failed })
    else s
  | .abandon _ =>
    if c.phase = .completed ∨ c.phase = .failed then s
    else (s.drop c).set i { c with phase := .failed }
  | _ => s

def step (s : Station) (input : Input) : Station × Unit :=
  match input with
  | .pass ms =>
    ({ s.inQueue (.pass ms) with links := (s.links.step (.pass ms)).1 }, ())
  | .request request unixSecs written =>
    ({ s with ceremonies := s.ceremonies ++ [env.challenged request unixSecs written] }, ())
  | .decide fingerprintHex approved =>
    (s.inQueue (.decide (pairingKey fingerprintHex) approved), ())
  | .pinPeer name fingerprintHex address disk =>
    ({ s with book := (s.book.pinWithAddress env.serde disk name fingerprintHex address).1 }, ())
  | .unpin fingerprintHex disk =>
    ({ s with book := (s.book.unpin env.serde disk fingerprintHex).1 }, ())
  | .link op => ({ s with links := (s.links.step op).1 }, ())
  | .register i | .read i _ | .resolve i | .finish i | .pin i _ | .accept i _ | .abandon i =>
    match s.ceremonies[i]? with
    | none => (s, ())
    | some c => (s.turn env i c input, ())

end Station

/-- A station with this book, before the first request. -/
def Station.start (book : PeerBook) : Station := ⟨.empty, .empty, book, []⟩

/-- The station behind the steps of a run. -/
abbrev after (book : PeerBook) (l : List Input) : Station :=
  Trace.final (Station.step env) (Station.start book) l

/-! ### What earns trust -/

/-- The fingerprints that are looked up as pinned. -/
def trusted (peers : List Peer) : Set String := {f | isPinned peers f = true}

/-- What the user pinned without a ceremony. -/
def pinnedByUser (l : List Input) : Set String :=
  {f | ∃ name fingerprintHex address disk,
    Input.pinPeer name fingerprintHex address disk ∈ l ∧ identity fingerprintHex = identity f}

/-- What the user unpinned. -/
def unpinned (l : List Input) : Set String :=
  {f | ∃ fingerprintHex disk, Input.unpin fingerprintHex disk ∈ l ∧
    pairingKey fingerprintHex = identity f}

/-- The code that was on the screen came with the request. -/
def Ceremony.Typed (l : List Input) (c : Ceremony) : Prop :=
  ∃ unixSecs written, Input.request c.request unixSecs written ∈ l ∧
    ∃ code ∈ c.request.pairingCode,
      stationCodeValid env.sha256 env.localFingerprint code unixSecs = true

/-- The local user allowed this very request. -/
def Ceremony.Allowed (q : Queue String) (c : Ceremony) : Prop :=
  ∃ ticket ∈ c.waiter, ∃ d ∈ q.decided,
    d.ticket = ticket ∧ d.key = pairingKey c.request.peer ∧ d.approved = true

/-- The other side confirmed this station, and this side let it in. -/
def Ceremony.Earned (l : List Input) (q : Queue String) (c : Ceremony) : Prop :=
  c.heard = some (.pairConfirm env.localFingerprint) ∧ (c.Typed env l ∨ c.Allowed q)

/-- The peers whose ceremonies have earned them trust. -/
def Station.earned (l : List Input) (s : Station) : Set String :=
  {f | ∃ c ∈ s.ceremonies, pairingKey c.request.peer = identity f ∧ c.Earned env l s.queue}

/-! ### Keys of registrations -/

section

variable {κ : Type} [DecidableEq κ] (rules : Rules κ) {q q' : Queue κ} {key : κ} {t : ℕ}

/-- The keys of all registrations, by ticket. -/
def keys (q : Queue κ) : List κ := q.registrations.map Registration.key

omit [DecidableEq κ] in
lemma keys_modify {f : Registration κ → Registration κ} (hf : ∀ r, (f r).key = r.key) :
    keys (q.modify t f) = keys q := by
  apply List.ext_getElem?
  intro i
  rw [keys, keys, List.getElem?_map, List.getElem?_map, Queue.registrations_modify]
  split_ifs
  · rcases q.registrations[i]? with _ | r
    · rfl
    · simp [hf]
  · rfl

lemma keys_remove (q : Queue κ) (key : κ) : keys (q.remove key) = keys q := by
  rcases hlisted : q.listed key with _ | t
  · rw [Queue.remove_none hlisted]
  · rw [Queue.remove_some hlisted]
    exact keys_modify fun _ => rfl

lemma keys_register (q : Queue κ) (key : κ) : (q.register rules key).1 = q ∧ (∃ reason, (q.register rules key).2 =
    .refused reason) ∨ (q.register rules key).2 = .registered (keys q).length ∧
      keys (q.register rules key).1 = keys q ++ [key] := by
  unfold Queue.register
  split_ifs
  · exact Or.inl ⟨rfl, _, rfl⟩
  · exact Or.inl ⟨rfl, _, rfl⟩
  · exact Or.inl ⟨rfl, _, rfl⟩
  · refine Or.inr ⟨?_, ?_⟩
    · rw [keys, List.length_map]
    · rw [keys, keys, List.map_append]
      rfl

/-- A registration keeps its key. -/
lemma keys_step (op : Approvals.Op κ) : keys q <+: keys (q.step rules op).1 := by
  have hsame : ∀ {l : List κ}, l = keys q → keys q <+: l := fun h => h ▸ List.prefix_rfl
  cases op with
  | pass ms => exact List.prefix_rfl
  | register key =>
    rcases keys_register rules q key with ⟨h, -⟩ | ⟨-, h⟩
    · exact hsame (congrArg keys h)
    · exact h ▸ List.prefix_append _ _
  | decide key approved =>
    simp only [Queue.step, Queue.decide]
    rcases q.listed key with _ | t
    · exact List.prefix_rfl
    · dsimp only
      split_ifs
      · exact hsame (keys_modify (q := q) fun _ => rfl)
      · exact hsame (keys_remove q _)
  | cancel t =>
    simp only [Queue.step]
    rcases q.registrations[t]? with _ | r
    · exact List.prefix_rfl
    · exact hsame (keys_remove q _)
  | wait t =>
    refine hsame (keys_modify (q := q) fun r => ?_)
    split_ifs <;> rfl
  | resolve t => exact hsame (keys_modify (q := q) fun _ => rfl)
  | finish t =>
    simp only [Queue.step]
    rcases q.registrations[t]? with _ | ⟨key, channel, _ | _ | decision | _ | _⟩
    case some.resolved =>
      refine hsame (Eq.trans ?_ (keys_remove q key))
      exact keys_modify (q := q.remove key) (t := t) fun _ => rfl
    all_goals exact List.prefix_rfl
  | drop t =>
    refine hsame (keys_modify (q := q) fun r => ?_)
    unfold Queue.abandon
    split <;> rfl

/-- A decision stays on the record, and a new one is of a registration that has its key. -/
lemma decided_step (h : q.Tidy) (op : Approvals.Op κ) :
    (q.step rules op).1.decided = q.decided ∨
      ∃ t key approved, (keys q)[t]? = some key ∧
        (q.step rules op).1.decided = q.decided ++ [⟨q.now, t, key, approved⟩] := by
  by_cases hop : ∃ key approved, op = .decide key approved
  · obtain ⟨key, approved, rfl⟩ := hop
    simp only [Queue.step, Queue.decide]
    rcases hlisted : q.listed key with _ | t
    · exact Or.inl rfl
    · obtain ⟨r, hr, hkey, -⟩ := h.entry key t (Queue.listed_some hlisted)
      dsimp only
      split_ifs
      · refine Or.inr ⟨t, key, approved, ?_, rfl⟩
        rw [keys, List.getElem?_map, hr, Option.map_some, hkey]
      · exact Or.inl (Queue.remove_same key).2.1
  · have hmoves : Queue.Moves rules q (q.step rules op).1 op := Queue.moves_step op
    cases hmoves with
    | applied htaken => exact absurd ⟨_, _, rfl⟩ hop
    | idle huntaken hnow hdecided => exact Or.inl hdecided

/-- The decisions are of registrations under their keys. -/
def Keyed (q : Queue κ) : Prop := ∀ d ∈ q.decided, (keys q)[d.ticket]? = some d.key

omit [DecidableEq κ] in
lemma getElem?_of_prefix {α : Type*} {l m : List α} {a : α} (h : l <+: m) (ha : l[t]? = some a) :
    m[t]? = some a := by
  obtain ⟨r, rfl⟩ := h
  rw [List.getElem?_append_left (List.getElem?_eq_some_iff.mp ha).1, ha]

lemma Keyed.step (h : q.Tidy) (hkeyed : Keyed q) (op : Approvals.Op κ) :
    Keyed (q.step rules op).1 := by
  have hkeep := keys_step rules (q := q) op
  intro d hd
  rcases decided_step rules h op with heq | ⟨t, key, approved, hkey, heq⟩
  · exact getElem?_of_prefix hkeep (hkeyed d (heq ▸ hd))
  · rw [heq] at hd
    rcases List.mem_append.mp hd with hd | hd
    · exact getElem?_of_prefix hkeep (hkeyed d hd)
    · obtain rfl := List.mem_singleton.mp hd
      exact getElem?_of_prefix hkeep hkey

/-- A wait that says yes was decided so. -/
lemma applied_of_waited (h : q.Sound) (hwaited : (q.step rules (.finish t)).2 = .waited true) :
    q.Applied t true := by
  simp only [Queue.step] at hwaited
  rcases hr : q.registrations[t]? with _ | ⟨key, channel, _ | _ | decision | _ | _⟩ <;>
    simp only [hr, reduceCtorEq, Answer.waited.injEq] at hwaited
  subst hwaited
  rw [h.applied]
  exact ⟨_, hr, (h.told t _ hr true (Or.inl rfl)).mp rfl⟩

end

/-! ### What holds of a task -/

/-- The task has not ended. -/
def Ceremony.IsOpen (c : Ceremony) : Prop := c.phase ≠ .completed ∧ c.phase ≠ .failed

/-- The peer went into the book. -/
def Ceremony.IsPinned (c : Ceremony) : Prop := c.phase = .pinned ∨ c.phase = .completed

/-- A frame that completes a pairing. -/
def IsAccepted : WireMessage → Prop
  | .accepted .. => True
  | _ => False

variable {env} {b : PeerBook} {l : List Input} {q q' : Queue String} {s s' : Station}
  {c c' : Ceremony} {i : ℕ}

/-- What a task has come to, and what for. -/
structure Ceremony.Sound (env : Setting) (l : List Input) (q : Queue String) (c : Ceremony) :
    Prop where
  ticket : ∀ t ∈ c.waiter, (keys q)[t]? = some (pairingKey c.request.peer)
  typed : c.typedCodeAccepted = true → c.Typed env l
  challenged : ∀ m ∈ c.sent, IsAccepted m → c.phase = .completed
  phase : match c.phase with
    | .registering => c.waiter = none ∧ c.heard = none
    | .confirming => (c.waiter = none → c.typedCodeAccepted = true) ∧ c.heard = none
    | .asking => c.heard = some (.pairConfirm env.localFingerprint)
    | .approved | .pinned | .completed => c.Earned env l q
    | .failed => True

lemma Ceremony.Typed.mono (h : c.Typed env l) (input : Input) : c.Typed env (l ++ [input]) := by
  obtain ⟨unixSecs, written, hmem, hcode⟩ := h
  exact ⟨unixSecs, written, List.mem_append_left _ hmem, hcode⟩

lemma Ceremony.Allowed.mono (h : c.Allowed q) (hq : q.decided ⊆ q'.decided) : c.Allowed q' := by
  obtain ⟨t, ht, d, hd, hrest⟩ := h
  exact ⟨t, ht, d, hq hd, hrest⟩

lemma Ceremony.Earned.mono (h : c.Earned env l q) (hq : q.decided ⊆ q'.decided) (input : Input) :
    c.Earned env (l ++ [input]) q' :=
  ⟨h.1, h.2.imp (fun ht => ht.mono input) fun ha => ha.mono hq⟩

lemma Ceremony.Sound.mono (h : c.Sound env l q) (hkeys : keys q <+: keys q')
    (hq : q.decided ⊆ q'.decided) (input : Input) : c.Sound env (l ++ [input]) q' := by
  refine ⟨fun t ht => getElem?_of_prefix hkeys (h.ticket t ht), fun ht => (h.typed ht).mono input,
    h.challenged, ?_⟩
  have hphase := h.phase
  cases hc : c.phase <;> simp only [hc] at hphase ⊢
  · exact hphase
  · exact hphase
  · exact hphase
  · exact hphase.mono hq input
  · exact hphase.mono hq input
  · exact hphase.mono hq input

/-! ### What a turn does -/

/-- What a task heard stands, or it has read it now. -/
def Heard (input : Input) (i : ℕ) (c c' : Ceremony) : Prop :=
  c'.heard = c.heard ∨
    c.phase = .confirming ∧ ∃ incoming, input = .read i incoming ∧ c'.heard = incoming.message

/-- The queue of a station moves on, and a task with it. -/
structure Turned (env : Setting) (s s' : Station) (input : Input) (i : ℕ) (c c' : Ceremony) :
    Prop where
  ceremonies : s'.ceremonies = s.ceremonies.set i c'
  queue : ∃ ops, s'.queue = Trace.final (Queue.step pairingApprovals) s.queue ops
  request : c'.request = c.request
  typed : c'.typedCodeAccepted = c.typedCodeAccepted
  waiter : c'.waiter = c.waiter ∨
    c.phase = .registering ∧ c'.waiter = some (keys s.queue).length
  heard : Heard input i c c'
  sent : c.sent <+: c'.sent
  closed : ¬c.IsOpen → c' = c
  sound : ∀ {l}, c.Sound env l s.queue → s.queue.Sound → Keyed s.queue →
    c'.Sound env (l ++ [input]) s'.queue
  /-- Only a pin adds to the book, and only by its peer. -/
  book : trusted s'.book.peers ⊆ trusted s.book.peers ∪
    {f | c.phase = .approved ∧ pairingKey c.request.peer = identity f}
  kept : trusted s.book.peers ⊆ trusted s'.book.peers
  pinned : c'.IsPinned → c.IsPinned ∨ c.request.peer ∈ trusted s'.book.peers

/-- The queue only moves on. -/
lemma queue_moves (ops : List (Approvals.Op String)) (hq : q.Sound) (hkeyed : Keyed q) :
    let q' := Trace.final (Queue.step pairingApprovals) q ops
    q'.Sound ∧ Keyed q' ∧ keys q <+: keys q' ∧ q.decided ⊆ q'.decided := by
  induction ops generalizing q with
  | nil => exact ⟨hq, hkeyed, List.prefix_rfl, List.Subset.refl _⟩
  | cons op ops ih =>
    obtain ⟨hsound, hkeyed', hkeys, hdecided⟩ :=
      ih (hq.step op) (hkeyed.step pairingApprovals hq.tidy op)
    refine ⟨hsound, hkeyed', (keys_step pairingApprovals op).trans hkeys, List.Subset.trans ?_ hdecided⟩
    rcases decided_step pairingApprovals hq.tidy op with heq | ⟨_, _, _, -, heq⟩
    · exact heq ▸ List.Subset.refl _
    · exact heq ▸ List.subset_append_left _ _

lemma save_peers (serde : SerdePeers) (disk : Disk) (b : PeerBook) :
    (b.save serde disk).1.peers = b.peers := by
  unfold PeerBook.save
  split
  · rfl
  · split
    · rfl
    · split
      · rfl
      · split <;> rfl

/-- A pin goes ahead, or leaves the list and says why. -/
lemma trusted_pinWithAddress_cases (serde : SerdePeers) (disk : Disk) (b : PeerBook)
    (name fingerprintHex : String) (address : Option String) :
    (b.pinWithAddress serde disk name fingerprintHex address).1.peers = b.peers ∧
        (∃ e, (b.pinWithAddress serde disk name fingerprintHex address).2 = .error e) ∨
      identity fingerprintHex = pairingKey fingerprintHex ∧
        trusted (b.pinWithAddress serde disk name fingerprintHex address).1.peers =
          trusted b.peers ∪ {f | identity fingerprintHex = identity f} := by
  rcases b.pinWithAddress_cases serde disk name fingerprintHex address with
    ⟨-, e, heq⟩ | ⟨hgo, heq⟩
  · rw [heq]
    exact Or.inl ⟨rfl, e, rfl⟩
  · refine Or.inr ⟨identity_of_pin hgo, ?_⟩
    have hpeers : (b.pinWithAddress serde disk name fingerprintHex address).1.peers =
        BookCall.next.nextPin b.peers name fingerprintHex address := by
      rw [heq]
      split_ifs with hsame
      · exact hsame.symm
      · exact save_peers ..
    rw [hpeers]
    ext f
    exact (isPinned_nextPin hgo f).trans or_comm

/-- A pin adds at most its peer. -/
lemma trusted_pinWithAddress (serde : SerdePeers) (disk : Disk) (b : PeerBook)
    (name fingerprintHex : String) (address : Option String) :
    trusted (b.pinWithAddress serde disk name fingerprintHex address).1.peers ⊆
      trusted b.peers ∪ {f | identity fingerprintHex = identity f ∧
        identity fingerprintHex = pairingKey fingerprintHex} := by
  rcases trusted_pinWithAddress_cases serde disk b name fingerprintHex address with
    ⟨hpeers, -⟩ | ⟨hkey, hpeers⟩
  · rw [hpeers]
    exact Set.subset_union_left
  · rw [hpeers]
    exact Set.union_subset_union_right _ fun f hid => ⟨hid, hkey⟩

/-- A pin takes nobody out. -/
lemma subset_trusted_pinWithAddress (serde : SerdePeers) (disk : Disk) (b : PeerBook)
    (name fingerprintHex : String) (address : Option String) :
    trusted b.peers ⊆ trusted (b.pinWithAddress serde disk name fingerprintHex address).1.peers := by
  rcases trusted_pinWithAddress_cases serde disk b name fingerprintHex address with
    ⟨hpeers, -⟩ | ⟨-, hpeers⟩
  · rw [hpeers]
  · rw [hpeers]
    exact Set.subset_union_left

/-- An unpin adds nobody, and takes out whom it names. -/
lemma trusted_unpin (serde : SerdePeers) (disk : Disk) (b : PeerBook) (fingerprintHex : String) :
    trusted (b.unpin serde disk fingerprintHex).1.peers ⊆ trusted b.peers ∧
      trusted b.peers ⊆ trusted (b.unpin serde disk fingerprintHex).1.peers ∪
        {f | pairingKey fingerprintHex = identity f} := by
  have hstep : (b.step serde ⟨.unpin fingerprintHex, disk⟩).1 =
      (b.unpin serde disk fingerprintHex).1 := by
    unfold PeerBook.step
    dsimp only
    split <;> simp_all
  rw [← hstep]
  rcases b.step_cases serde ⟨.unpin fingerprintHex, disk⟩ nofun with ⟨-, e, heq⟩ | ⟨-, heq⟩
  · rw [heq]
    exact ⟨subset_rfl, Set.subset_union_left⟩
  · rw [heq]
    split_ifs
    · exact ⟨subset_rfl, Set.subset_union_left⟩
    · rw [save_peers]
      refine ⟨fun f hf => ((isPinned_nextUnpin f).mp hf).1, fun f hf => ?_⟩
      by_cases hid : identity f = Text.toAsciiLowercase fingerprintHex
      · exact Or.inr hid.symm
      · exact Or.inl ((isPinned_nextUnpin f).mpr ⟨hf, hid⟩)

/-- The turn of a task that stays as it is. -/
lemma turned_idle (ops : List (Approvals.Op String)) (hi : s.ceremonies[i]? = some c)
    (hs' : s' = { s with queue := Trace.final (Queue.step pairingApprovals) s.queue ops }) :
    Turned env s s' input i c c := by
  subst hs'
  refine ⟨?_, ⟨ops, rfl⟩, rfl, rfl, Or.inl rfl, Or.inl rfl, List.prefix_rfl, fun _ => rfl, ?_,
    Set.subset_union_left, subset_rfl, Or.inl⟩
  · obtain ⟨hlt, rfl⟩ := List.getElem?_eq_some_iff.mp hi
    exact (List.set_getElem_self hlt).symm
  intro l hc hq hkeyed
  obtain ⟨-, -, hkeys, hdecided⟩ := queue_moves ops hq hkeyed
  exact hc.mono hkeys hdecided input

/-- A task that goes on without a new ticket. -/
lemma turned_set (ops : List (Approvals.Op String))
    (hceremonies : s'.ceremonies = s.ceremonies.set i c')
    (hqueue : s'.queue = Trace.final (Queue.step pairingApprovals) s.queue ops)
    (hbook : trusted s'.book.peers ⊆ trusted s.book.peers ∪
      {f | c.phase = .approved ∧ pairingKey c.request.peer = identity f})
    (hrequest : c'.request = c.request) (htyped : c'.typedCodeAccepted = c.typedCodeAccepted)
    (hwaiter : c'.waiter = c.waiter) (hheard : Heard input i c c')
    (hkept : trusted s.book.peers ⊆ trusted s'.book.peers)
    (hpinned : c'.IsPinned → c.IsPinned ∨ c.request.peer ∈ trusted s'.book.peers)
    (hsent : c'.sent = c.sent ∨
      ∃ m, c'.sent = c.sent ++ [m] ∧ (IsAccepted m → c'.phase = .completed))
    (hopen : c.IsOpen)
    (hphase : ∀ {l}, c.Sound env l s.queue → s.queue.Sound → Keyed s.queue →
      match c'.phase with
      | .registering => c'.waiter = none ∧ c'.heard = none
      | .confirming => (c'.waiter = none → c'.typedCodeAccepted = true) ∧ c'.heard = none
      | .asking => c'.heard = some (.pairConfirm env.localFingerprint)
      | .approved | .pinned | .completed => c'.Earned env (l ++ [input]) s'.queue
      | .failed => True) : Turned env s s' input i c c' := by
  refine ⟨hceremonies, ⟨ops, hqueue⟩, hrequest, htyped, Or.inl hwaiter, hheard, ?_,
    fun h => absurd hopen h, ?_, hbook, hkept, hpinned⟩
  · rcases hsent with hsent | ⟨m, hsent, -⟩
    · exact hsent ▸ List.prefix_rfl
    · exact hsent ▸ List.prefix_append _ _
  intro l hc hq hkeyed
  obtain ⟨-, -, hkeys, hdecided⟩ := queue_moves ops hq hkeyed
  refine ⟨fun t ht => ?_, fun ht => ?_, fun m hm haccepted => ?_, hphase hc hq hkeyed⟩
  · rw [hrequest, hqueue]
    exact getElem?_of_prefix hkeys (hc.ticket t (hwaiter ▸ ht))
  · obtain ⟨unixSecs, written, hmem, hcode⟩ := (hc.typed (htyped ▸ ht)).mono input
    exact ⟨unixSecs, written, hrequest.symm ▸ hmem, hrequest.symm ▸ hcode⟩
  · have hold : m ∉ c.sent := fun hmem => hopen.1 (hc.challenged m hmem haccepted)
    rcases hsent with hsent | ⟨m', hsent, hcompleted⟩
    · exact absurd (hsent ▸ hm) hold
    · rw [hsent] at hm
      obtain rfl := List.mem_singleton.mp ((List.mem_append.mp hm).resolve_left hold)
      exact hcompleted haccepted

/-- A task that ends, with a last word to its peer or without. -/
lemma turned_failed (ops : List (Approvals.Op String))
    (hceremonies : s'.ceremonies = s.ceremonies.set i c')
    (hqueue : s'.queue = Trace.final (Queue.step pairingApprovals) s.queue ops)
    (hbook : trusted s'.book.peers ⊆ trusted s.book.peers ∪
      {f | c.phase = .approved ∧ pairingKey c.request.peer = identity f})
    (hkept : trusted s.book.peers ⊆ trusted s'.book.peers)
    (hopen : c.IsOpen) (hheard : Heard input i c c')
    (hend : c' = { c with phase := .failed, heard := c'.heard } ∨
      ∃ reason, c' = { c with heard := c'.heard }.rejected reason) :
    Turned env s s' input i c c' := by
  refine turned_set ops hceremonies hqueue hbook ?_ ?_ ?_ hheard hkept ?_ ?_ hopen ?_ <;>
    rcases hend with hend | ⟨reason, hend⟩ <;> rw [hend]
  case refine_4.inl => exact nofun
  case refine_4.inr => exact nofun
  case refine_5.inl => exact Or.inl rfl
  case refine_5.inr => exact Or.inr ⟨_, rfl, False.elim⟩
  all_goals first | rfl | exact fun _ _ _ => trivial

/-- Withdrawing a request only moves the queue. -/
lemma cancel_eq (s : Station) (c : Ceremony) : ∃ ops, s.cancel c =
    { s with queue := Trace.final (Queue.step pairingApprovals) s.queue ops } := by
  unfold Station.cancel
  split
  · exact ⟨[], rfl⟩
  · exact ⟨[.cancel _, .drop _], rfl⟩

lemma drop_eq (s : Station) (c : Ceremony) : ∃ ops, s.drop c =
    { s with queue := Trace.final (Queue.step pairingApprovals) s.queue ops } := by
  unfold Station.drop
  split
  · exact ⟨[], rfl⟩
  · exact ⟨[.drop _], rfl⟩

/-- Only the station's own fingerprint confirms. -/
lemma refusal_eq_none {incoming : Incoming} (h : env.refusal incoming = none) :
    incoming = .disconnected ∨ incoming = .frame (.pairConfirm env.localFingerprint) := by
  cases incoming with
  | disconnected => exact Or.inl rfl
  | frame message =>
    cases message with
    | pairConfirm fingerprint =>
      simp only [Setting.refusal] at h
      split_ifs at h with heq
      exact Or.inr (heq ▸ rfl)
    | _ => simp [Setting.refusal] at h
  | _ => simp [Setting.refusal] at h

lemma turned_read (hi : c.phase = .confirming) (incoming : Incoming) :
    ∃ c', Turned env s (s.read env i c incoming) (.read i incoming) i c c' := by
  have hopen : c.IsOpen := by simp [Ceremony.IsOpen, hi]
  obtain ⟨ops, hcancel⟩ := cancel_eq s { c with heard := incoming.message }
  rcases hrefusal : env.refusal incoming with _ | reason
  · rcases refusal_eq_none hrefusal with rfl | rfl
    · refine ⟨{ c with heard := none, phase := .failed }, ?_⟩
      refine turned_failed ops ?_ ?_ ?_ ?_ hopen (Or.inr ⟨hi, _, rfl, rfl⟩) (Or.inl rfl) <;>
        simp only [Station.read, hrefusal, hcancel]
      · rfl
      · rfl
      · exact Set.subset_union_left
      · exact subset_rfl
    · rcases hwaiter : c.waiter with _ | ticket
      · refine ⟨{ c with heard := some (.pairConfirm env.localFingerprint), phase := .approved }, ?_⟩
        have hread : s.read env i c (.frame (.pairConfirm env.localFingerprint)) =
            s.set i { c with heard := some (.pairConfirm env.localFingerprint)
                             phase := .approved } := by
          simp [Station.read, hrefusal, hwaiter, Incoming.message]
        rw [hread]
        refine turned_set [] rfl rfl Set.subset_union_left rfl rfl rfl
          (Or.inr ⟨hi, _, rfl, rfl⟩) subset_rfl nofun (Or.inl rfl) hopen fun {l} hc _ _ => ?_
        -- without a ticket it was the typed code
        have hphase := hc.phase
        simp only [hi] at hphase
        exact ⟨rfl, Or.inl ((hc.typed (hphase.1 hwaiter)).mono _)⟩
      · refine ⟨{ c with heard := some (.pairConfirm env.localFingerprint), phase := .asking }, ?_⟩
        have hread : s.read env i c (.frame (.pairConfirm env.localFingerprint)) =
            (s.inQueue (.wait ticket)).set i
              { c with heard := some (.pairConfirm env.localFingerprint), phase := .asking } := by
          simp [Station.read, hrefusal, hwaiter, Incoming.message]
        rw [hread]
        exact turned_set [.wait ticket] rfl rfl Set.subset_union_left rfl rfl rfl
          (Or.inr ⟨hi, _, rfl, rfl⟩) subset_rfl nofun (Or.inl rfl) hopen fun _ _ _ => rfl
  · refine ⟨{ c with heard := incoming.message }.rejected reason, ?_⟩
    refine turned_failed ops ?_ ?_ ?_ ?_ hopen (Or.inr ⟨hi, _, rfl, rfl⟩)
      (Or.inr ⟨reason, rfl⟩) <;>
      simp only [Station.read, hrefusal, hcancel]
    · rfl
    · rfl
    · exact Set.subset_union_left
    · exact subset_rfl

/-- A wait that says yes was allowed under the peer's own key. -/
lemma allowed_of_waited {ticket : ℕ} (hc : c.Sound env l s.queue) (hq : s.queue.Sound)
    (hkeyed : Keyed s.queue) (hwaiter : c.waiter = some ticket)
    (hwaited : (s.queue.step pairingApprovals (.finish ticket)).2 = .waited true) :
    c.Allowed s.queue := by
  obtain ⟨d, hd, rfl, happroved⟩ := applied_of_waited pairingApprovals hq hwaited
  have hkey := hc.ticket d.ticket hwaiter
  rw [hkeyed d hd] at hkey
  exact ⟨d.ticket, hwaiter, d, hd, rfl, Option.some.inj hkey, happroved⟩

lemma turned_finish (hi : s.ceremonies[i]? = some c) (hphase : c.phase = .asking) {ticket : ℕ}
    (hwaiter : c.waiter = some ticket) : ∃ c', Turned env s (s.finish i c ticket) (.finish i) i c c' := by
  have hopen : c.IsOpen := by simp [Ceremony.IsOpen, hphase]
  unfold Station.finish
  rcases hstep : s.queue.step pairingApprovals (.finish ticket) with ⟨queue, answer⟩
  have hqueue : queue = Trace.final (Queue.step pairingApprovals) s.queue [.finish ticket] := by
    rw [Trace.final_cons, hstep, Trace.final_nil]
  split
  case h_1 heq =>
    obtain ⟨rfl, rfl⟩ := Prod.mk.inj heq
    refine ⟨{ c with phase := .approved }, ?_⟩
    refine turned_set _ rfl hqueue Set.subset_union_left rfl rfl rfl (Or.inl rfl)
      subset_rfl nofun (Or.inl rfl) hopen fun {l} hc hq hkeyed => ?_
    have hsound := hc.phase
    simp only [hphase] at hsound
    have hallowed := allowed_of_waited hc hq hkeyed hwaiter (by rw [hstep])
    obtain ⟨-, -, -, hdecided⟩ := queue_moves [.finish ticket] hq hkeyed
    exact ⟨hsound, Or.inr (Ceremony.Allowed.mono hallowed (hqueue ▸ hdecided))⟩
  case h_2 heq =>
    obtain ⟨rfl, rfl⟩ := Prod.mk.inj heq
    exact ⟨_, turned_failed _ rfl hqueue Set.subset_union_left subset_rfl hopen (Or.inl rfl)
      (Or.inr ⟨"pairing was rejected or timed out locally", rfl⟩)⟩
  case h_3 heq =>
    obtain ⟨rfl, rfl⟩ := Prod.mk.inj heq
    exact ⟨c, turned_idle _ hi (by rw [hqueue])⟩

lemma turned_pin (hphase : c.phase = .approved) (disk : Disk) :
    ∃ c', Turned env s (s.pin env i c disk) (.pin i disk) i c c' := by
  have hopen : c.IsOpen := by simp [Ceremony.IsOpen, hphase]
  have hkept := subset_trusted_pinWithAddress env.serde disk s.book c.request.nodeName
    c.request.peer none
  have hcases := trusted_pinWithAddress_cases env.serde disk s.book c.request.nodeName
    c.request.peer none
  have htrusted : trusted (s.book.pinWithAddress env.serde disk c.request.nodeName
      c.request.peer none).1.peers ⊆ trusted s.book.peers ∪
        {f | c.phase = .approved ∧ pairingKey c.request.peer = identity f} := by
    refine (trusted_pinWithAddress env.serde disk s.book c.request.nodeName c.request.peer
      none).trans (Set.union_subset_union_right _ ?_)
    rintro f ⟨hid, hkey⟩
    exact ⟨hphase, hkey.symm.trans hid⟩
  unfold Station.pin PeerBook.pin
  generalize s.book.pinWithAddress env.serde disk c.request.nodeName c.request.peer none = result
    at hkept hcases htrusted ⊢
  obtain ⟨book, e | u⟩ := result
  · exact ⟨_, turned_failed [] rfl rfl htrusted hkept hopen (Or.inl rfl) (Or.inl rfl)⟩
  · have hpinned : c.request.peer ∈ trusted book.peers := by
      rcases hcases with ⟨-, e, he⟩ | ⟨-, hbook⟩
      · cases he
      · rw [hbook]
        exact Or.inr rfl
    refine ⟨{ c with phase := .pinned }, ?_⟩
    refine turned_set [] rfl rfl htrusted rfl rfl rfl (Or.inl rfl) hkept
      (fun _ => Or.inr hpinned) (Or.inl rfl) hopen fun {l} hc _ _ => ?_
    have hsound := hc.phase
    simp only [hphase] at hsound
    exact Ceremony.Earned.mono hsound (List.Subset.refl _) _

lemma turned_register (hphase : c.phase = .registering) :
    ∃ c', Turned env s (s.turn env i c (.register i)) (.register i) i c c' := by
  have hopen : c.IsOpen := by simp [Ceremony.IsOpen, hphase]
  simp only [Station.turn, hphase, if_true]
  rcases hstep : s.queue.step pairingApprovals (.register (pairingKey c.request.peer)) with
    ⟨queue, answer⟩
  have hqueue : queue = Trace.final (Queue.step pairingApprovals) s.queue
      [.register (pairingKey c.request.peer)] := by
    rw [Trace.final_cons, hstep, Trace.final_nil]
  have hregister := keys_register pairingApprovals s.queue (pairingKey c.request.peer)
  have hboth : (s.queue.register pairingApprovals (pairingKey c.request.peer)) = (queue, answer) :=
    hstep
  rw [hboth] at hregister
  rcases hregister with ⟨-, reason, rfl⟩ | ⟨rfl, hkeys⟩
  · exact ⟨_, turned_failed _ rfl hqueue Set.subset_union_left subset_rfl hopen (Or.inl rfl)
      (Or.inr ⟨reason, rfl⟩)⟩
  · refine ⟨{ c with waiter := some (keys s.queue).length, phase := .confirming }, rfl,
      ⟨_, hqueue⟩, rfl, rfl, Or.inr ⟨hphase, rfl⟩, Or.inl rfl, List.prefix_rfl,
      fun h => absurd hopen h, ?_, Set.subset_union_left, subset_rfl, nofun⟩
    intro l hc hq hkeyed
    have hsound := hc.phase
    simp only [hphase] at hsound
    refine ⟨fun t ht => ?_, fun ht => (hc.typed ht).mono _,
      fun m hm haccepted => absurd (hc.challenged m hm haccepted) hopen.1, nofun, hsound.2⟩
    obtain rfl := Option.some.inj ht
    show (keys queue)[(keys s.queue).length]? = _
    rw [hkeys, List.getElem?_concat_length]

/-- A turn moves its task, and the queue and the book with it. -/
lemma turned (env : Setting) (hi : s.ceremonies[i]? = some c) {input : Input} (htask : input.task = some i) :
    ∃ c', Turned env s (s.turn env i c input) input i c c' := by
  have hidle : ∃ c', Turned env s s input i c c' := ⟨c, turned_idle [] hi rfl⟩
  cases input <;> simp only [Input.task, Option.some.injEq, reduceCtorEq] at htask <;> subst htask
  case register =>
    by_cases hphase : c.phase = .registering
    · exact turned_register hphase
    · simp only [Station.turn, if_neg hphase]
      exact hidle
  case read incoming =>
    simp only [Station.turn]
    split_ifs with hphase
    · exact turned_read hphase incoming
    · exact hidle
  case resolve =>
    simp only [Station.turn]
    split
    · exact ⟨c, turned_idle [.resolve _] hi rfl⟩
    · exact hidle
  case finish =>
    simp only [Station.turn]
    split
    · exact turned_finish hi ‹_› ‹_›
    · exact hidle
  case pin disk =>
    simp only [Station.turn]
    split_ifs with hphase
    · exact turned_pin hphase disk
    · exact hidle
  case accept written =>
    simp only [Station.turn]
    split_ifs with hphase hwritten
    · have hopen : c.IsOpen := by simp [Ceremony.IsOpen, hphase]
      refine ⟨{ c.send accepted with phase := .completed }, ?_⟩
      refine turned_set [] rfl rfl Set.subset_union_left rfl rfl rfl (Or.inl rfl)
        subset_rfl (fun _ => Or.inl (Or.inl hphase)) (Or.inr ⟨_, rfl, fun _ => rfl⟩) hopen
        fun {l} hc _ _ => ?_
      have hsound := hc.phase
      simp only [hphase] at hsound
      exact Ceremony.Earned.mono hsound (List.Subset.refl _) _
    · exact ⟨_, turned_failed [] rfl rfl Set.subset_union_left subset_rfl
        (by simp [Ceremony.IsOpen, hphase]) (Or.inl rfl) (Or.inl rfl)⟩
    · exact hidle
  case abandon =>
    simp only [Station.turn]
    split_ifs with hphase
    · exact hidle
    · obtain ⟨ops, hdrop⟩ := drop_eq s c
      rw [hdrop]
      exact ⟨_, turned_failed _ rfl rfl Set.subset_union_left subset_rfl (not_or.mp hphase)
        (Or.inl rfl) (Or.inl rfl)⟩

/-! ### What a step does -/

/-- What a step of the station can do. -/
inductive Moved (env : Setting) (s s' : Station) (input : Input) : Prop
  /-- The queue and the book move, and no task. -/
  | aside (ops : List (Approvals.Op String))
    (queue : s'.queue = Trace.final (Queue.step pairingApprovals) s.queue ops)
    (ceremonies : s'.ceremonies = s.ceremonies)
    (book : trusted s'.book.peers ⊆ trusted s.book.peers ∪ pinnedByUser [input])
    (kept : trusted s.book.peers ⊆ trusted s'.book.peers ∪ unpinned [input])
  | challenged {request : PairingRequest} {unixSecs : ℕ} {written : Bool}
    (request_eq : input = .request request unixSecs written)
    (station : s' =
      { s with ceremonies := s.ceremonies ++ [env.challenged request unixSecs written] })
  | turned {i : ℕ} {c c' : Ceremony} (task : input.task = some i)
    (before : s.ceremonies[i]? = some c) (turned : Turned env s s' input i c c')

theorem moved_step (env : Setting) (s : Station) (input : Input) :
    Moved env s (s.step env input).1 input := by
  have hturn : ∀ {i}, input.task = some i → Moved env s (match s.ceremonies[i]? with
      | none => (s, ())
      | some c => (s.turn env i c input, ())).1 input := by
    intro i htask
    rcases hi : s.ceremonies[i]? with _ | c
    · exact .aside [] rfl rfl Set.subset_union_left Set.subset_union_left
    · obtain ⟨c', ht⟩ := Ceremonies.turned env hi htask
      exact .turned htask hi ht
  cases input with
  | pass ms =>
    refine .aside [.pass ms] ?_ ?_ ?_ ?_
    · rfl
    · rfl
    · exact Set.subset_union_left
    · exact Set.subset_union_left
  | request request unixSecs written => exact .challenged rfl rfl
  | decide fingerprintHex approved =>
    refine .aside [.decide (pairingKey fingerprintHex) approved] ?_ ?_ ?_ ?_
    · rfl
    · rfl
    · exact Set.subset_union_left
    · exact Set.subset_union_left
  | pinPeer name fingerprintHex address disk =>
    have hadds := trusted_pinWithAddress env.serde disk s.book name fingerprintHex address
    have hkeeps := subset_trusted_pinWithAddress env.serde disk s.book name fingerprintHex address
    simp only [Station.step]
    generalize (s.book.pinWithAddress env.serde disk name fingerprintHex address).1 = book
      at hadds hkeeps ⊢
    refine .aside [] rfl rfl (hadds.trans ?_) (hkeeps.trans Set.subset_union_left)
    exact Set.union_subset_union_right _ fun f hf =>
      ⟨name, fingerprintHex, address, disk, List.mem_cons_self, hf.1⟩
  | unpin fingerprintHex disk =>
    obtain ⟨hadds, hkeeps⟩ := trusted_unpin env.serde disk s.book fingerprintHex
    simp only [Station.step]
    generalize (s.book.unpin env.serde disk fingerprintHex).1 = book at hadds hkeeps ⊢
    refine .aside [] rfl rfl (hadds.trans Set.subset_union_left) (hkeeps.trans ?_)
    exact Set.union_subset_union_right _ fun f hf =>
      ⟨fingerprintHex, disk, List.mem_cons_self, hf⟩
  | link op =>
    refine .aside [] ?_ ?_ ?_ ?_
    · rfl
    · rfl
    · exact Set.subset_union_left
    · exact Set.subset_union_left
  | register i => exact hturn rfl
  | read i incoming => exact hturn rfl
  | resolve i => exact hturn rfl
  | finish i => exact hturn rfl
  | pin i disk => exact hturn rfl
  | accept i written => exact hturn rfl
  | abandon i => exact hturn rfl

/-- What is earned stays earned. -/
lemma Turned.earned {input : Input} (h : Turned env s s' input i c c')
    (hc : c.Sound env l s.queue) (hq : s.queue.Sound) (hkeyed : Keyed s.queue)
    (hearned : c.Earned env l s.queue) : c'.Earned env (l ++ [input]) s'.queue := by
  obtain ⟨ops, hops⟩ := h.queue
  obtain ⟨-, -, -, hdecided⟩ := queue_moves ops hq hkeyed
  rw [← hops] at hdecided
  have hphase := hc.phase
  have hheard : c.heard ≠ none := by rw [hearned.1]; exact Option.some_ne_none _
  have hconfirming : c.phase ≠ .confirming := fun heq => by
    simp only [heq] at hphase
    exact hheard hphase.2
  have hregistering : c.phase ≠ .registering := fun heq => by
    simp only [heq] at hphase
    exact hheard hphase.2
  have hwaiter := h.waiter.resolve_right fun h => hregistering h.1
  refine ⟨(h.heard.resolve_right fun hnew => hconfirming hnew.1).trans hearned.1, ?_⟩
  rcases hearned.2 with ⟨unixSecs, written, hmem, hcode⟩ | ⟨t, ht, d, hd, hrest⟩
  · refine Or.inl ⟨unixSecs, written, ?_, ?_⟩
    · rw [h.request]
      exact List.mem_append_left _ hmem
    · rw [h.request]
      exact hcode
  · exact Or.inr ⟨t, hwaiter ▸ ht, d, hdecided hd, h.request.symm ▸ hrest⟩

/-! ### Runs -/

/-- Between the inputs so far and the station. -/
structure Station.Sound (env : Setting) (b : PeerBook) (l : List Input) (s : Station) : Prop where
  queue : s.queue.Sound
  keyed : Keyed s.queue
  ceremonies : ∀ c ∈ s.ceremonies, c.Sound env l s.queue
  alone : ∀ (i j : ℕ) c c' t, s.ceremonies[i]? = some c → s.ceremonies[j]? = some c' →
    c.waiter = some t → c'.waiter = some t → i = j
  book : trusted s.book.peers ⊆ trusted b.peers ∪ (pinnedByUser l ∪ s.earned env l)
  /-- Whoever got into the book is there, or the user unpinned them. -/
  pinned : ∀ c ∈ s.ceremonies, c.IsPinned → c.request.peer ∈ trusted s.book.peers ∪ unpinned l

lemma pinnedByUser_append (l m : List Input) :
    pinnedByUser (l ++ m) = pinnedByUser l ∪ pinnedByUser m := by
  ext f
  simp only [pinnedByUser, Set.mem_union]
  constructor
  · rintro ⟨name, fingerprintHex, address, disk, hmem, hid⟩
    exact (List.mem_append.mp hmem).imp (fun h => ⟨name, fingerprintHex, address, disk, h, hid⟩)
      fun h => ⟨name, fingerprintHex, address, disk, h, hid⟩
  · rintro (⟨name, fingerprintHex, address, disk, h, hid⟩ |
      ⟨name, fingerprintHex, address, disk, h, hid⟩)
    · exact ⟨name, fingerprintHex, address, disk, List.mem_append_left _ h, hid⟩
    · exact ⟨name, fingerprintHex, address, disk, List.mem_append_right _ h, hid⟩

lemma unpinned_append (l m : List Input) : unpinned (l ++ m) = unpinned l ∪ unpinned m := by
  ext f
  simp only [unpinned, Set.mem_union]
  constructor
  · rintro ⟨fingerprintHex, disk, hmem, hid⟩
    exact (List.mem_append.mp hmem).imp (fun h => ⟨fingerprintHex, disk, h, hid⟩)
      fun h => ⟨fingerprintHex, disk, h, hid⟩
  · rintro (⟨fingerprintHex, disk, h, hid⟩ | ⟨fingerprintHex, disk, h, hid⟩)
    · exact ⟨fingerprintHex, disk, List.mem_append_left _ h, hid⟩
    · exact ⟨fingerprintHex, disk, List.mem_append_right _ h, hid⟩

/-- A new task starts out well. -/
lemma challenged_sound (request : PairingRequest) (unixSecs : ℕ) (written : Bool)
    (q : Queue String) :
    (env.challenged request unixSecs written).Sound env (l ++ [.request request unixSecs written])
      q := by
  have hmem : Input.request request unixSecs written ∈ l ++ [.request request unixSecs written] :=
    List.mem_append_right _ List.mem_cons_self
  have htyped : (request.pairingCode.any fun code =>
      stationCodeValid env.sha256 env.localFingerprint code unixSecs) = true →
      ∃ code ∈ request.pairingCode,
        stationCodeValid env.sha256 env.localFingerprint code unixSecs = true := by
    intro h
    obtain ⟨code, hcode, hvalid⟩ := (Option.any_eq_true _ _).mp h
    exact ⟨code, hcode, hvalid⟩
  unfold Setting.challenged
  split_ifs with hclaimed
  · refine ⟨nofun, nofun, fun m hm haccepted => ?_, trivial⟩
    obtain rfl := List.mem_singleton.mp hm
    cases haccepted
  · refine ⟨nofun, fun ht => ⟨unixSecs, written, hmem, htyped ht⟩, fun m hm haccepted => ?_, ?_⟩
    · obtain rfl := List.mem_singleton.mp hm
      cases haccepted
    · dsimp only [Ceremony.send]
      split_ifs with hcode
      · exact ⟨fun _ => hcode, rfl⟩
      · exact ⟨rfl, rfl⟩
  · exact ⟨nofun, fun ht => ⟨unixSecs, written, hmem, htyped ht⟩, fun m hm _ => absurd hm (by simp),
      trivial⟩

/-- A step that moves the queue or the book, and no task. -/
lemma Station.Sound.aside (h : s.Sound env b l) (ops : List (Approvals.Op String)) {input : Input}
    (hqueue : s'.queue = Trace.final (Queue.step pairingApprovals) s.queue ops)
    (hceremonies : s'.ceremonies = s.ceremonies)
    (hbook : trusted s'.book.peers ⊆ trusted s.book.peers ∪ pinnedByUser [input])
    (hkept : trusted s.book.peers ⊆ trusted s'.book.peers ∪ unpinned [input]) :
    s'.Sound env b (l ++ [input]) := by
  obtain ⟨hsound, hkeyed, hkeys, hdecided⟩ := queue_moves ops h.queue h.keyed
  rw [← hqueue] at hsound hkeyed hkeys hdecided
  refine ⟨hsound, hkeyed, fun c hc => ?_, ?_, ?_, fun c hc hpinned => ?_⟩
  · exact (h.ceremonies c (hceremonies ▸ hc)).mono hkeys hdecided input
  · rw [hceremonies]
    exact h.alone
  · rw [pinnedByUser_append]
    intro f hf
    rcases hbook hf with hf | hf
    · rcases h.book hf with hf | hf | ⟨c, hc, hkey, hearned⟩
      · exact Or.inl hf
      · exact Or.inr (Or.inl (Or.inl hf))
      · exact Or.inr (Or.inr ⟨c, hceremonies ▸ hc, hkey, hearned.mono hdecided input⟩)
    · exact Or.inr (Or.inl (Or.inr hf))
  · rw [unpinned_append]
    rcases h.pinned c (hceremonies ▸ hc) hpinned with hin | hout
    · exact (hkept hin).imp_right Or.inr
    · exact Or.inr (Or.inl hout)

/-- A step that moves one task. -/
lemma Station.Sound.turned (h : s.Sound env b l) (hi : s.ceremonies[i]? = some c)
    {input : Input} (ht : Turned env s s' input i c c') : s'.Sound env b (l ++ [input]) := by
  have hc := h.ceremonies c (List.mem_of_getElem? hi)
  obtain ⟨ops, hqueue⟩ := ht.queue
  obtain ⟨hsound, hkeyed, hkeys, hdecided⟩ := queue_moves ops h.queue h.keyed
  rw [← hqueue] at hsound hkeyed hkeys hdecided
  have hlt := (List.getElem?_eq_some_iff.mp hi).1
  have hat : ∀ {j : ℕ} {d : Ceremony}, s'.ceremonies[j]? = some d →
      j = i ∧ d = c' ∨ j ≠ i ∧ s.ceremonies[j]? = some d := by
    intro j d hd
    rw [ht.ceremonies, List.getElem?_set] at hd
    split_ifs at hd with hij
    · exact Or.inl ⟨hij.symm, (Option.some.inj hd).symm⟩
    · exact Or.inr ⟨fun heq => hij heq.symm, hd⟩
  have hself : s'.ceremonies[i]? = some c' := by rw [ht.ceremonies, List.getElem?_set_self hlt]
  have hkept : ∀ d ∈ s.ceremonies, d.Earned env l s.queue → ∃ d' ∈ s'.ceremonies,
      d'.request = d.request ∧ d'.Earned env (l ++ [input]) s'.queue := by
    intro d hd hearned
    obtain ⟨j, hj⟩ := List.mem_iff_getElem?.mp hd
    by_cases hij : j = i
    · subst hij
      obtain rfl := Option.some.inj (hi.symm.trans hj)
      exact ⟨c', List.mem_of_getElem? hself, ht.request,
        ht.earned hc h.queue h.keyed hearned⟩
    · refine ⟨d, List.mem_of_getElem? (i := j) ?_, rfl, hearned.mono hdecided input⟩
      rw [ht.ceremonies, List.getElem?_set_ne (Ne.symm hij), hj]
  -- a new ticket is nobody else's
  have hfresh : ∀ {j : ℕ} {d : Ceremony} {t : ℕ}, s.ceremonies[j]? = some d → d.waiter = some t →
      t < (keys s.queue).length := by
    intro j d t hd hwaiter
    exact (List.getElem?_eq_some_iff.mp
      ((h.ceremonies d (List.mem_of_getElem? hd)).ticket t hwaiter)).1
  have hother : ∀ {j : ℕ} {d : Ceremony} {t : ℕ}, s.ceremonies[j]? = some d → d.waiter = some t →
      c'.waiter = some t → j = i := by
    intro j d t hd hwaiter hnew
    rcases ht.waiter with hsame | ⟨-, hticket⟩
    · exact h.alone j i d c t hd hi hwaiter (hsame.symm.trans hnew)
    · obtain rfl := Option.some.inj (hticket.symm.trans hnew)
      exact absurd (hfresh hd hwaiter) (lt_irrefl _)
  refine ⟨hsound, hkeyed, fun d hd => ?_, ?_, ?_, fun d hd hpinned => ?_⟩
  · obtain ⟨j, hj⟩ := List.mem_iff_getElem?.mp hd
    rcases hat hj with ⟨-, rfl⟩ | ⟨-, hj⟩
    · exact ht.sound hc h.queue h.keyed
    · exact (h.ceremonies d (List.mem_of_getElem? hj)).mono hkeys hdecided input
  · intro j k d d' t hj hk hd hd'
    rcases hat hj with ⟨rfl, rfl⟩ | ⟨hji, hj⟩ <;> rcases hat hk with ⟨rfl, rfl⟩ | ⟨hki, hk⟩
    · rfl
    · exact absurd (hother hk hd' hd) hki
    · exact absurd (hother hj hd hd') hji
    · exact h.alone j k d d' t hj hk hd hd'
  · rw [pinnedByUser_append]
    intro f hf
    rcases ht.book hf with hf | ⟨hphase, hkey⟩
    · rcases h.book hf with hf | hf | ⟨d, hd, hkey, hearned⟩
      · exact Or.inl hf
      · exact Or.inr (Or.inl (Or.inl hf))
      · obtain ⟨d', hd', hrequest, hearned'⟩ := hkept d hd hearned
        exact Or.inr (Or.inr ⟨d', hd', hrequest.symm ▸ hkey, hearned'⟩)
    · have hearned := hc.phase
      simp only [hphase] at hearned
      exact Or.inr (Or.inr ⟨c', List.mem_of_getElem? hself, ht.request.symm ▸ hkey,
        ht.earned hc h.queue h.keyed hearned⟩)
  · rw [unpinned_append]
    have hold : ∀ d ∈ s.ceremonies, d.IsPinned →
        d.request.peer ∈ trusted s'.book.peers ∪ (unpinned l ∪ unpinned [input]) :=
      fun d hd hpinned => (h.pinned d hd hpinned).imp (fun hin => ht.kept hin) Or.inl
    obtain ⟨j, hj⟩ := List.mem_iff_getElem?.mp hd
    rcases hat hj with ⟨-, rfl⟩ | ⟨-, hj⟩
    · rw [ht.request]
      exact (ht.pinned hpinned).elim (hold c (List.mem_of_getElem? hi)) Or.inl
    · exact hold d (List.mem_of_getElem? hj) hpinned

/-- A new task has no ticket yet. -/
lemma Station.Sound.challenged (h : s.Sound env b l) {request : PairingRequest} {unixSecs : ℕ}
    {written : Bool} (hnew : (env.challenged request unixSecs written).Sound env l s.queue) :
    Station.Sound env b l
      { s with ceremonies := s.ceremonies ++ [env.challenged request unixSecs written] } := by
  have hticket : (env.challenged request unixSecs written).waiter = none := by
    unfold Setting.challenged
    split_ifs <;> rfl
  have hunpinned : ¬(env.challenged request unixSecs written).IsPinned := by
    unfold Setting.challenged
    split_ifs
    · exact nofun
    · dsimp only [Ceremony.IsPinned, Ceremony.send]
      split_ifs <;> exact nofun
    · exact nofun
  have hold : ∀ {j : ℕ} {d : Ceremony} {t : ℕ}, d.waiter = some t →
      (s.ceremonies ++ [env.challenged request unixSecs written])[j]? = some d →
      s.ceremonies[j]? = some d := by
    intro j d t hwaiter hj
    rw [List.getElem?_append] at hj
    split_ifs at hj
    · exact hj
    · obtain rfl := List.mem_singleton.mp (List.mem_of_getElem? hj)
      cases hticket.symm.trans hwaiter
  refine ⟨h.queue, h.keyed, fun c hc => ?_, fun i j c c' t hi hj ht ht' => ?_, ?_,
    fun c hc hpinned => ?_⟩
  · rcases List.mem_append.mp hc with hc | hc
    · exact h.ceremonies c hc
    · exact List.mem_singleton.mp hc ▸ hnew
  · exact h.alone i j c c' t (hold ht hi) (hold ht' hj) ht ht'
  · refine h.book.trans (Set.union_subset_union_right _ (Set.union_subset_union_right _ ?_))
    rintro f ⟨c, hc, hearned⟩
    exact ⟨c, List.mem_append_left _ hc, hearned⟩
  · rcases List.mem_append.mp hc with hc | hc
    · exact h.pinned c hc hpinned
    · exact absurd (List.mem_singleton.mp hc ▸ hpinned) hunpinned

lemma Station.Sound.step (h : s.Sound env b l) (input : Input) :
    (s.step env input).1.Sound env b (l ++ [input]) := by
  cases moved_step env s input with
  | aside ops hqueue hceremonies hbook hkept => exact h.aside ops hqueue hceremonies hbook hkept
  | challenged hinput hstation =>
    have haside : s.Sound env b (l ++ [input]) :=
      h.aside [] rfl rfl Set.subset_union_left Set.subset_union_left
    rw [hstation]
    exact haside.challenged (hinput ▸ challenged_sound _ _ _ s.queue)
  | turned htask hi ht => exact h.turned hi ht

lemma Station.sound_start (env : Setting) (b : PeerBook) : (Station.start b).Sound env b [] where
  queue := Approvals.sound_after pairingApprovals []
  keyed := fun _ hd => absurd hd List.not_mem_nil
  ceremonies := fun _ hc => absurd hc List.not_mem_nil
  alone := fun _ _ _ _ _ hi => (nomatch hi)
  book := Set.subset_union_left
  pinned := fun _ hc => absurd hc List.not_mem_nil

lemma Station.sound_after (env : Setting) (b : PeerBook) (l : List Input) :
    (after env b l).Sound env b l :=
  Trace.always (I := fun l s => Station.Sound env b l s) (Station.sound_start env b)
    fun _ input h => h.step input

/-- **Trust is earned.** Along every run of the station, whatever the peers send and however the
tasks interleave, all who are trusted were so before, were pinned by the user, or have come through
a ceremony of their own: under their certificate they confirmed this station, and with the request
came the code that was on its screen, or the local user allowed that very request. No decision
serves two ceremonies, and whoever was told of a pairing stays trusted until the user unpins
them. -/
theorem trust_is_earned (env : Setting) (b : PeerBook) (l : List Input) :
    trusted (after env b l).book.peers ⊆
        trusted b.peers ∪ (pinnedByUser l ∪ (after env b l).earned env l) ∧
      (∀ (i j : ℕ) c c' ticket, (after env b l).ceremonies[i]? = some c →
        (after env b l).ceremonies[j]? = some c' → c.waiter = some ticket →
        c'.waiter = some ticket → i = j) ∧
      ∀ c ∈ (after env b l).ceremonies, (∃ m ∈ c.sent, IsAccepted m) →
        c.request.peer ∈ trusted (after env b l).book.peers ∪ unpinned l := by
  have hsound := Station.sound_after env b l
  refine ⟨hsound.book, hsound.alone, fun c hc ⟨m, hm, haccepted⟩ => ?_⟩
  exact hsound.pinned c hc (Or.inr ((hsound.ceremonies c hc).challenged m hm haccepted))

end TheKvm.Ceremonies

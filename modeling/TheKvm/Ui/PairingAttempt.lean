import TheKvm.Daemon.Pairing
import TheKvm.Ui.Revocation

/-!
The pairing ceremony, on the computer that dials, and both sides of it at work.

A Connect dials an address and asks whoever answers to pair. The user compares codes and confirms,
or the other side says that the code typed here was its own. What the other side accepts is pinned
in the user's book and in that of the daemon.
-/

namespace TheKvm.Ceremonies

open Approvals Control

/-! ### An attempt -/

/-- Who answers a dial. -/
inductive Line
  /-- The station, in one of its tasks. -/
  | station (i : ℕ)
  /-- Another machine, under its certificate. -/
  | other (certificate : String)
  deriving DecidableEq

structure PendingPair where
  verificationCode : String
  peerFingerprint : String
  peerNodeName : String
  address : String
  stationPreApproved : Bool
  typedCodeSent : Bool

inductive Stage
  | dialed
  /-- `pair_prepare` failed. -/
  | unreached
  | challenged
  | comparing
  | confirmed
  | answered
  | paired
  /-- The peer is known, and no ceremony is needed. -/
  | connecting
  | ended
  deriving DecidableEq

structure Attempt where
  line : Line
  address : String
  /-- The socket address that was dialed. -/
  resolved : String
  pairingCode : Option String
  /-- The address is one that discovery found. -/
  healed : Bool
  pair : Option PendingPair
  /-- The user confirmed the code on the screen. -/
  compared : Bool
  confirmSent : Bool
  /-- The answer to the confirmation. -/
  heard : Option WireMessage
  stage : Stage

/-- The computer that dials. -/
structure Dialer where
  fingerprintHex : String
  nodeName : String

/-- A typed code that is not blank. -/
def sentCode (pairingCode : Option String) : Option String :=
  (pairingCode.map Text.trim).filter fun code => !code.isEmpty

variable (env : Setting) (own : Dialer)

/-- The `PairRequest` of an attempt, with the certificate it comes under. -/
def Dialer.request (pairingCode : Option String) : PairingRequest :=
  ⟨own.fingerprintHex, own.nodeName, own.fingerprintHex, sentCode pairingCode⟩

/-- `peer_fingerprint`. -/
def Line.certificate : Line → String
  | .station _ => env.localFingerprint
  | .other certificate => certificate

/-- `pair_prepare`, from the answer on. -/
def pairPrepare (a : Attempt) : WireMessage → Except String PendingPair
  | .pairChallenge nodeName fingerprintHex _ preApproved =>
    let peerFingerprint := a.line.certificate env
    if fingerprintHex ≠ peerFingerprint then .error "peer fingerprint changed during pairing"
    else
      .ok ⟨verificationCode env.sha256 own.fingerprintHex peerFingerprint, peerFingerprint, nodeName,
        a.resolved, preApproved, (sentCode a.pairingCode).isSome⟩
  | .reject reason => .error ("peer rejected pairing: " ++ reason)
  | other => .error ("unexpected pairing response: " ++ env.debug other)

/-- The address at which discovery shows the peer that was at a stale one. -/
def healedAddressFor (user : List Peer) (found : List (String × String)) (stale : String) :
    Option String := do
  let peer ← peerAt user stale
  let (address, _) ← found.find? fun (address, advertised) =>
    Text.toAsciiLowercase advertised = Text.toAsciiLowercase peer.fingerprintHex ∧ address ≠ stale
  return address

/-! ### Both sides -/

/-- What comes of the files and the requests of a pin. -/
structure BookTurn where
  /-- The user's book is loaded. -/
  loads : Bool
  saves : Bool
  /-- The daemon is asked. -/
  mirrors : Bool

structure World where
  station : Station
  /-- What came to the station. -/
  inputs : List Input
  attempts : List Attempt
  /-- The attempt whose code is on the screen. -/
  pending : Option ℕ
  user : List Peer
  daemon : List Peer

/-- Who is at an address, and what comes of a request there. -/
inductive Answering
  | station (unixSecs : ℕ) (written : Bool)
  | other (certificate : String)

inductive Event
  /-- Whatever else comes to the station. -/
  | station (input : Input)
  | connect (address resolved : String) (pairingCode : Option String) (answering : Answering)
  /-- A second dial, after a scan. -/
  | redial (k : ℕ) (found : List (String × String)) (answering : Answering)
  /-- The answer to a request; of the station it is what it sent. -/
  | challenge (k : ℕ) (message : WireMessage) (healing : BookTurn) (reads : Bool)
  /-- The user's clicks. -/
  | confirm
  | cancel
  /-- A confirmation gets to the station. -/
  | deliver (k : ℕ)
  | answer (k : ℕ) (message : WireMessage) (pinning : BookTurn)
  | fail (k : ℕ)
  /-- Other calls on the books. -/
  | userBook (call : BookCall)
  | daemonBook (call : BookCall)

/-- A request is out. -/
def dialing (line : Line) (address resolved : String) (pairingCode : Option String)
    (healed : Bool) : Attempt :=
  ⟨line, address, resolved, pairingCode, healed, none, false, false, none, .dialed⟩

namespace World

def set (w : World) (k : ℕ) (a : Attempt) : World := { w with attempts := w.attempts.set k a }

def atStation (w : World) (input : Input) : World :=
  { w with station := (w.station.step env input).1, inputs := w.inputs ++ [input] }

/-- Nobody else has the certificate of this computer. -/
def foreign (w : World) : Input → Bool
  | .request request _ _ => request.peer ≠ own.fingerprintHex
  | .read i (.frame _) =>
    (w.station.ceremonies[i]?).all fun c => c.request.peer ≠ own.fingerprintHex
  | _ => true

/-- What an attempt gets to read: of the station, what it sent; of others, anything. -/
def incoming (w : World) (a : Attempt) (n : ℕ) (message : WireMessage) : Option WireMessage :=
  match a.line with
  | .station i => (w.station.ceremonies[i]?).bind fun c => c.sent[n]?
  | .other _ => some message

def dial (w : World) (address resolved : String) (pairingCode : Option String) (healed : Bool) :
    Answering → World
  | .station unixSecs written =>
    let a := dialing (.station w.station.ceremonies.length) address resolved pairingCode healed
    { w.atStation env (.request (own.request pairingCode) unixSecs written) with
      attempts := w.attempts ++ [a] }
  | .other certificate =>
    { w with attempts :=
        w.attempts ++ [dialing (.other certificate) address resolved pairingCode healed] }

/-- The code on the screen is taken off, and its channel dropped. -/
def takePending (w : World) : World :=
  match w.pending with
  | none => w
  | some k =>
    match w.attempts[k]? with
    | none => { w with pending := none }
    | some a => { w.set k { a with stage := .ended } with pending := none }

/-- A pin in the user's book, and whether it went through. -/
def pinUser (w : World) (turn : BookTurn) (name : String) (pair : PendingPair) : World × Bool :=
  let call : BookCall := .pinWithAddress name pair.peerFingerprint (some pair.address)
  if turn.loads = false ∨ call.refused w.user = true then (w, false)
  else if call.next w.user = w.user then (w, true)
  else if turn.saves then ({ w with user := call.next w.user }, true)
  else (w, false)

/-- `pin_daemon_peer`. -/
def mirrorPin (w : World) (turn : BookTurn) (pair : PendingPair) : World :=
  if turn.mirrors then
    { w with daemon :=
        pinDaemonPeer w.daemon ⟨pair.peerNodeName, pair.peerFingerprint, some pair.address⟩ }
  else w

/-- `pin_controller_peer`. -/
def pinControllerPeer (w : World) (turn : BookTurn) (pair : PendingPair) : World × Bool :=
  let name := if (Text.trim pair.peerNodeName).isEmpty then pair.address else pair.peerNodeName
  w.pinUser turn name pair

def persistHealedAddress (w : World) (turn : BookTurn) (pair : PendingPair) : World :=
  (w.pinUser turn pair.peerNodeName pair).1.mirrorPin turn pair

/-- `start_session_flow`, once the answer is there. -/
def challenge (w : World) (k : ℕ) (a : Attempt) (message : WireMessage) (healing : BookTurn)
    (reads : Bool) : World :=
  match pairPrepare env own a message with
  | .error _ => w.set k { a with stage := .unreached }
  | .ok pair =>
    let a := { a with pair := some pair, stage := .challenged }
    let w := w.set k a
    let w := if a.healed then w.persistHealedAddress healing pair else w
    if reads && isPinned w.user pair.peerFingerprint then w.set k { a with stage := .connecting }
    else if pair.stationPreApproved then w.set k { a with confirmSent := true, stage := .confirmed }
    else { w.takePending.set k { a with stage := .comparing } with pending := some k }

/-- `run_pair_confirm`, once the answer is there. -/
def answer (w : World) (k : ℕ) (a : Attempt) (pair : PendingPair) (message : WireMessage)
    (pinning : BookTurn) : World :=
  let a := { a with heard := some message, stage := .answered }
  let w := w.set k a
  match message with
  | .accepted .. =>
    match w.pinControllerPeer pinning pair with
    | (w, true) => (w.mirrorPin pinning pair).set k { a with stage := .paired }
    | (w, false) => w.set k { a with stage := .ended }
  | _ => w.set k { a with stage := .ended }

/-- An attempt's turn. -/
def turn (w : World) (k : ℕ) (a : Attempt) : Event → World
  | .redial _ found answering =>
    if a.stage = .unreached then
      let w := w.set k { a with stage := .ended }
      match if a.healed then none else healedAddressFor w.user found a.address with
      | some fresh => w.dial env own fresh fresh a.pairingCode true answering
      | none => w
    else w
  | .challenge _ message healing reads =>
    match a.stage, w.incoming a 0 message with
    | .dialed, some message => w.challenge env own k a message healing reads
    | _, _ => w
  | .deliver _ =>
    match a.line, a.confirmSent, a.pair with
    | .station i, true, some pair =>
      w.atStation env (.read i (.frame (.pairConfirm pair.peerFingerprint)))
    | _, _, _ => w
  | .answer _ message pinning =>
    match a.stage, a.pair, w.incoming a 1 message with
    | .confirmed, some pair, some message => w.answer k a pair message pinning
    | _, _, _ => w
  | .fail _ =>
    match a.stage with
    | .dialed => w.set k { a with stage := .unreached }
    | .comparing => if w.pending = some k then w.takePending else w
    | .confirmed => w.set k { a with stage := .ended }
    | _ => w
  | _ => w

def step (w : World) (event : Event) : World × Unit :=
  match event with
  | .station input => (if w.foreign own input then w.atStation env input else w, ())
  | .connect address resolved pairingCode answering =>
    (w.takePending.dial env own address resolved pairingCode false answering, ())
  | .confirm =>
    match w.pending.bind fun k => (w.attempts[k]?).map fun a => (k, a) with
    | some (k, a) =>
      ({ w.set k { a with compared := true, confirmSent := true, stage := .confirmed } with
          pending := none }, ())
    | none => (w, ())
  | .cancel => (w.takePending, ())
  | .userBook call => ({ w with user := call.done w.user }, ())
  | .daemonBook call => ({ w with daemon := call.done w.daemon }, ())
  | .redial k _ _ | .challenge k _ _ _ | .deliver k | .answer k _ _ | .fail k =>
    match w.attempts[k]? with
    | none => (w, ())
    | some a => (w.turn env own k a event, ())

end World

/-- Before the first dial. -/
def World.start (book : PeerBook) (user daemon : List Peer) : World :=
  ⟨.start book, [], [], none, user, daemon⟩

/-! ### The station's tasks, step by step -/

/-- What a step keeps of a task. -/
structure Continues (input : Input) (i : ℕ) (c c' : Ceremony) : Prop where
  request : c'.request = c.request
  typed : c'.typedCodeAccepted = c.typedCodeAccepted
  sent : c.sent <+: c'.sent
  closed : ¬c.IsOpen → c' = c
  heard : c'.heard = c.heard ∨ ∃ incoming, input = .read i incoming ∧ c'.heard = incoming.message

variable {env own} {b : PeerBook} {u d : List Peer} {s : Station} {w w' : World} {l : List Event}
  {a a' : Attempt} {c c' : Ceremony} {i k : ℕ} {input : Input}

lemma Continues.refl (input : Input) (i : ℕ) (c : Ceremony) : Continues input i c c :=
  ⟨rfl, rfl, List.prefix_rfl, fun _ => rfl, Or.inl rfl⟩

lemma Continues.completed (h : Continues input i c c') (hc : c.phase = .completed) :
    c'.phase = .completed := by
  rw [h.closed fun hopen => hopen.1 hc, hc]

/-- A task goes on, and a request is a new one. -/
lemma continues_step (env : Setting) (s : Station) (input : Input) :
    (∀ i c, s.ceremonies[i]? = some c →
        ∃ c', (s.step env input).1.ceremonies[i]? = some c' ∧ Continues input i c c') ∧
      ((s.step env input).1.ceremonies.length = s.ceremonies.length ∨
        ∃ request unixSecs written, input = .request request unixSecs written ∧
          (s.step env input).1.ceremonies =
            s.ceremonies ++ [env.challenged request unixSecs written]) := by
  cases moved_step env s input with
  | aside _ hqueue hceremonies hbook hkept =>
    rw [hceremonies]
    exact ⟨fun i c hi => ⟨c, hi, .refl input i c⟩, Or.inl rfl⟩
  | challenged hinput hstation =>
    rw [hstation]
    refine ⟨fun i c hi => ⟨c, ?_, .refl input i c⟩, Or.inr ⟨_, _, _, hinput, rfl⟩⟩
    exact (List.getElem?_append_left (List.getElem?_eq_some_iff.mp hi).1).trans hi
  | @turned j d d' htask hj ht =>
    rw [ht.ceremonies]
    refine ⟨fun i c hi => ?_, Or.inl List.length_set⟩
    by_cases hij : i = j
    · subst hij
      obtain rfl := Option.some.inj (hj.symm.trans hi)
      refine ⟨d', List.getElem?_set_self (List.getElem?_eq_some_iff.mp hi).1, ht.request, ht.typed,
        ht.sent, ht.closed, ?_⟩
      exact ht.heard.imp_right fun ⟨_, incoming, hread⟩ => ⟨incoming, hread⟩
    · exact ⟨c, (List.getElem?_set_ne (Ne.symm hij)).trans hi, .refl input i c⟩

/-- A task after a step was there before, or the step is its request. -/
lemma continues_back (hi : (s.step env input).1.ceremonies[i]? = some c') :
    (∃ c, s.ceremonies[i]? = some c ∧ Continues input i c c') ∨
      i = s.ceremonies.length ∧ ∃ request unixSecs written,
        input = .request request unixSecs written ∧ c' = env.challenged request unixSecs written := by
  obtain ⟨hforward, hlength⟩ := continues_step env s input
  have hlt := (List.getElem?_eq_some_iff.mp hi).1
  by_cases hold : i < s.ceremonies.length
  · obtain ⟨c'', hi', hc⟩ := hforward i _ (List.getElem?_eq_getElem hold)
    obtain rfl := Option.some.inj (hi.symm.trans hi')
    exact Or.inl ⟨_, List.getElem?_eq_getElem hold, hc⟩
  · rcases hlength with hlength | ⟨request, unixSecs, written, hinput, hceremonies⟩
    · omega
    · rw [hceremonies] at hi hlt
      have hlast : i = s.ceremonies.length := by
        rw [List.length_append, List.length_singleton] at hlt
        omega
      rw [hlast, List.getElem?_concat_length] at hi
      exact Or.inr ⟨hlast, request, unixSecs, written, hinput, (Option.some.inj hi).symm⟩

/-- What a task says first: why it turns the request down, or its challenge. -/
def Ceremony.Opened (env : Setting) (c : Ceremony) : Prop :=
  c.sent = [] ∧ c.phase = .failed ∨
    ∃ m, c.sent[0]? = some m ∧ ((∃ reason, m = .reject reason) ∨
      m = .pairChallenge env.localNodeName env.localFingerprint
        (some (verificationCode env.sha256 env.localFingerprint c.request.peer))
        c.typedCodeAccepted)

lemma challenged_opened (env : Setting) (request : PairingRequest) (unixSecs : ℕ) (written : Bool) :
    (env.challenged request unixSecs written).Opened env ∧
      (env.challenged request unixSecs written).request = request ∧
      (env.challenged request unixSecs written).heard = none := by
  unfold Setting.challenged
  split_ifs
  · exact ⟨Or.inr ⟨_, rfl, Or.inl ⟨_, rfl⟩⟩, rfl, rfl⟩
  · exact ⟨Or.inr ⟨_, rfl, Or.inr rfl⟩, rfl, rfl⟩
  · exact ⟨Or.inl ⟨rfl, rfl⟩, rfl, rfl⟩

lemma Continues.opened (h : Continues input i c c') (hc : c.Opened env) : c'.Opened env := by
  rcases hc with ⟨hsent, hphase⟩ | ⟨m, hm, hfirst⟩
  · rw [h.closed fun hopen => hopen.2 hphase]
    exact Or.inl ⟨hsent, hphase⟩
  · refine Or.inr ⟨m, getElem?_of_prefix h.sent hm, ?_⟩
    rw [h.request, h.typed]
    exact hfirst

/-! ### What holds on both sides -/

/-- An attempt and the task that it talks to. -/
structure Attempt.Meets (own : Dialer) (a : Attempt) (c : Ceremony) : Prop where
  request : c.request = own.request a.pairingCode
  approved : ∀ p ∈ a.pair, p.stationPreApproved = c.typedCodeAccepted
  heard : ∀ m ∈ a.heard, IsAccepted m → c.phase = .completed

/-- What an attempt has come to. -/
structure Attempt.Sound (env : Setting) (own : Dialer) (ceremonies : List Ceremony) (a : Attempt) :
    Prop where
  line : ∀ i, a.line = .station i → ∃ c, ceremonies[i]? = some c ∧ a.Meets own c
  pair : ∀ p ∈ a.pair, p.peerFingerprint = a.line.certificate env ∧
    p.verificationCode = verificationCode env.sha256 own.fingerprintHex (a.line.certificate env)
  dialed : a.stage = .dialed → a.pair = none
  comparing : a.stage = .comparing → a.pair.isSome = true ∧ a.confirmSent = false
  confirmed : a.stage = .confirmed → a.confirmSent = true ∧ a.heard = none
  confirm : a.confirmSent = true → ∃ p ∈ a.pair, a.compared = true ∨ p.stationPreApproved = true
  heard : a.heard.isSome = true → a.confirmSent = true

/-- The other side let this computer in after the user's confirmation, or after it said itself
that the typed code was its own; or it answered at an address that discovery found. -/
def Attempt.Grants (a : Attempt) : Prop :=
  (∃ m ∈ a.heard, IsAccepted m) ∧
      (a.compared = true ∨ ∃ p ∈ a.pair, p.stationPreApproved = true) ∨
    a.healed = true ∧ a.pair.isSome = true

/-- The certificates that attempts had a grant from. -/
def World.granted (env : Setting) (w : World) : Set String :=
  {f | ∃ a ∈ w.attempts, identity (a.line.certificate env) = identity f ∧ a.Grants}

/-- What other calls on the books pinned. -/
def called (l : List Event) : Set String :=
  {f | ∃ call, (Event.userBook call ∈ l ∨ Event.daemonBook call ∈ l) ∧ call.decides f = some true}

/-! ### Books -/

lemma trusted_nextPin {peers : List Peer} {name fingerprintHex : String} {address : Option String}
    (hgo : BookCall.refused.refusedPin peers name fingerprintHex address = false) :
    trusted (BookCall.next.nextPin peers name fingerprintHex address) =
      trusted peers ∪ {f | identity fingerprintHex = identity f} := by
  ext f
  exact (isPinned_nextPin hgo f).trans or_comm

/-- A call pins nobody but whom it names. -/
lemma trusted_done (call : BookCall) (peers : List Peer) :
    trusted (call.done peers) ⊆ trusted peers ∪ {f | call.decides f = some true} := by
  rw [BookCall.done]
  split_ifs with hrefused
  · exact Set.subset_union_left
  · have hgo := Bool.eq_false_iff.mpr hrefused
    have hnamed : ∀ fingerprintHex f, identity fingerprintHex = identity f →
        (if identity fingerprintHex = identity f then some true else none) = some true :=
      fun fingerprintHex f hid => if_pos hid
    cases call with
    | loadOrCreate => exact Set.subset_union_left
    | unpin fingerprintHex => exact fun f hf => Or.inl ((isPinned_nextUnpin f).mp hf).1
    | pin name fingerprintHex =>
      rw [BookCall.refused] at hgo
      rw [BookCall.next, trusted_nextPin hgo]
      exact Set.union_subset_union_right _ (hnamed fingerprintHex)
    | pinWithAddress name fingerprintHex address =>
      rw [BookCall.refused] at hgo
      rw [BookCall.next, trusted_nextPin hgo]
      exact Set.union_subset_union_right _ (hnamed fingerprintHex)

lemma decides_pin {name fingerprintHex : String} {address : Option String} {f : String}
    (h : (BookCall.pinWithAddress name fingerprintHex address).decides f = some true) :
    identity fingerprintHex = identity f := by
  by_contra hne
  simp only [BookCall.decides, if_neg hne, reduceCtorEq] at h

lemma trusted_pinDaemonPeer (daemon : List Peer) (peer : Peer) :
    trusted (pinDaemonPeer daemon peer) ⊆
      trusted daemon ∪ {f | identity peer.fingerprintHex = identity f} := by
  unfold pinDaemonPeer
  split_ifs with hfingerprint
  · refine (trusted_done (daemonPin peer) daemon).trans (Set.union_subset_union_right _ ?_)
    intro f hf
    have hid : identity (Text.toAsciiLowercase peer.fingerprintHex) = identity f := decides_pin hf
    obtain ⟨-, hlower⟩ := isFingerprint_iff.mp (isFingerprint_toAsciiLowercase hfingerprint)
    obtain ⟨hdigits, htrim⟩ := Text.hexdigits_toAsciiLowercase (List.all_eq_true.mpr hlower)
    rw [identity_hexdigits hdigits] at hid
    show identity peer.fingerprintHex = identity f
    rw [identity, htrim, hid]
  · exact Set.subset_union_left

/-- A pin of an attempt leaves all but the user's book. -/
lemma pinUser_cases (w : World) (turn : BookTurn) (name : String) (pair : PendingPair) :
    ∃ user, (w.pinUser turn name pair).1 = { w with user } ∧
      trusted user ⊆ trusted w.user ∪ {f | identity pair.peerFingerprint = identity f} := by
  have hdone := trusted_done (.pinWithAddress name pair.peerFingerprint (some pair.address)) w.user
  unfold World.pinUser
  dsimp only
  split_ifs with hstop hsame hsaves
  · exact ⟨w.user, rfl, Set.subset_union_left⟩
  · exact ⟨w.user, rfl, Set.subset_union_left⟩
  · refine ⟨_, rfl, ?_⟩
    rw [BookCall.done, if_neg fun hrefused => hstop (Or.inr hrefused)] at hdone
    exact hdone.trans (Set.union_subset_union_right _ fun f hf => decides_pin hf)
  · exact ⟨w.user, rfl, Set.subset_union_left⟩

lemma mirrorPin_cases (w : World) (turn : BookTurn) (pair : PendingPair) :
    ∃ daemon, w.mirrorPin turn pair = { w with daemon } ∧
      trusted daemon ⊆ trusted w.daemon ∪ {f | identity pair.peerFingerprint = identity f} := by
  unfold World.mirrorPin
  split_ifs
  · exact ⟨_, rfl, trusted_pinDaemonPeer w.daemon _⟩
  · exact ⟨w.daemon, rfl, Set.subset_union_left⟩

/-! ### What a move keeps -/

/-- What an attempt keeps as it goes on. -/
structure Attempt.Goes (a a' : Attempt) : Prop where
  line : a'.line = a.line
  healed : a'.healed = a.healed
  pair : ∀ p ∈ a.pair, p ∈ a'.pair
  compared : a.compared = true → a'.compared = true
  confirmSent : a.confirmSent = true → a'.confirmSent = true
  heard : ∀ m ∈ a.heard, m ∈ a'.heard

lemma Attempt.Goes.grants (h : a.Goes a') (hgrants : a.Grants) : a'.Grants := by
  rcases hgrants with ⟨⟨m, hm, haccepted⟩, hwhy⟩ | ⟨hhealed, hpair⟩
  · refine Or.inl ⟨⟨m, h.heard m hm, haccepted⟩, hwhy.imp h.compared ?_⟩
    exact fun ⟨p, hp, happroved⟩ => ⟨p, h.pair p hp, happroved⟩
  · obtain ⟨p, hp⟩ := Option.isSome_iff_exists.mp hpair
    exact Or.inr ⟨h.healed.trans hhealed, Option.isSome_iff_exists.mpr ⟨p, h.pair p hp⟩⟩

/-- Between the station and the attempts, and in the books. -/
structure World.Sound (env : Setting) (own : Dialer) (b : PeerBook) (u d : List Peer)
    (l : List Event) (w : World) : Prop where
  station : w.station.Sound env b w.inputs
  opened : ∀ c ∈ w.station.ceremonies, c.Opened env
  attempts : ∀ a ∈ w.attempts, a.Sound env own w.station.ceremonies
  /-- A task under this computer's certificate is of an attempt, and hears only its confirmation. -/
  ours : ∀ i c, w.station.ceremonies[i]? = some c → c.request.peer = own.fingerprintHex →
    ∃ a ∈ w.attempts, a.line = .station i ∧ (c.heard.isSome = true → a.confirmSent = true)
  pending : ∀ k ∈ w.pending, ∃ a, w.attempts[k]? = some a ∧ a.stage = .comparing
  books : trusted w.user ∪ trusted w.daemon ⊆
    trusted u ∪ trusted d ∪ (called l ∪ w.granted env)

/-- An attempt goes on. -/
lemma World.Sound.set (h : w.Sound env own b u d l) (hk : w.attempts[k]? = some a)
    (hpending : w.pending ≠ some k) (hgoes : a.Goes a') (ha' : a'.Sound env own w.station.ceremonies) :
    (w.set k a').Sound env own b u d l := by
  have hlt := (List.getElem?_eq_some_iff.mp hk).1
  have hat : ∀ {j : ℕ} {a₁ : Attempt}, w.attempts[j]? = some a₁ →
      ∃ a₂, (w.attempts.set k a')[j]? = some a₂ ∧ a₁.Goes a₂ := by
    intro j a₁ hj
    by_cases hjk : j = k
    · subst hjk
      obtain rfl := Option.some.inj (hk.symm.trans hj)
      exact ⟨a', List.getElem?_set_self hlt, hgoes⟩
    · refine ⟨a₁, (List.getElem?_set_ne (Ne.symm hjk)).trans hj, rfl, rfl, ?_, id, id, ?_⟩
      · exact fun _ => id
      · exact fun _ => id
  refine ⟨h.station, h.opened, fun a₂ ha₂ => ?_, fun i c hi hpeer => ?_, fun j hj => ?_, ?_⟩
  · rcases List.mem_or_eq_of_mem_set ha₂ with ha₂ | rfl
    · exact h.attempts a₂ ha₂
    · exact ha'
  · obtain ⟨a₁, ha₁, hline, hheard⟩ := h.ours i c hi hpeer
    obtain ⟨j, hj⟩ := List.mem_iff_getElem?.mp ha₁
    obtain ⟨a₂, hj', hgoes'⟩ := hat hj
    exact ⟨a₂, List.mem_of_getElem? hj', hgoes'.line.trans hline,
      fun hc => hgoes'.confirmSent (hheard hc)⟩
  · obtain ⟨a₁, ha₁, hcomparing⟩ := h.pending j hj
    refine ⟨a₁, (List.getElem?_set_ne fun hkj => hpending ?_).trans ha₁, hcomparing⟩
    rw [hkj]
    exact hj
  · refine h.books.trans (Set.union_subset_union_right _ (Set.union_subset_union_right _ ?_))
    rintro f ⟨a₁, ha₁, hid, hgrants⟩
    obtain ⟨j, hj⟩ := List.mem_iff_getElem?.mp ha₁
    obtain ⟨a₂, hj', hgoes'⟩ := hat hj
    exact ⟨a₂, List.mem_of_getElem? hj', hgoes'.line ▸ hid, hgoes'.grants hgrants⟩

/-- The station goes on, with the attempts as they are. -/
lemma Attempt.Sound.continues (ha : a.Sound env own s.ceremonies) (input : Input) :
    a.Sound env own (s.step env input).1.ceremonies := by
  refine { ha with line := fun i hline => ?_ }
  obtain ⟨c, hi, hmeets⟩ := ha.line i hline
  obtain ⟨c', hi', hc⟩ := (continues_step env s input).1 i c hi
  refine ⟨c', hi', hc.request.trans hmeets.request, fun p hp => ?_, fun m hm haccepted => ?_⟩
  · rw [hc.typed]
    exact hmeets.approved p hp
  · exact hc.completed (hmeets.heard m hm haccepted)

/-- The station gets an input that can be: a request of others or of a new attempt, and what an
attempt has sent. -/
lemma World.Sound.atStation (h : w.Sound env own b u d l) (input : Input) (new : List Attempt)
    (hnew : ∀ a ∈ new, a.Sound env own (w.station.step env input).1.ceremonies)
    (hrequest : ∀ request unixSecs written, input = .request request unixSecs written →
      request.peer = own.fingerprintHex →
      ∃ a ∈ new, a.line = .station w.station.ceremonies.length)
    (hread : ∀ i c m, w.station.ceremonies[i]? = some c → c.request.peer = own.fingerprintHex →
      input = .read i (.frame m) → ∃ a ∈ w.attempts, a.line = .station i ∧ a.confirmSent = true) :
    World.Sound env own b u d l
      { w.atStation env input with attempts := w.attempts ++ new } := by
  refine ⟨h.station.step input, fun c' hc' => ?_, fun a ha => ?_, fun i c' hi hpeer => ?_,
    fun k hk => ?_, ?_⟩
  · obtain ⟨i, hi⟩ := List.mem_iff_getElem?.mp hc'
    rcases continues_back hi with ⟨c, hc, hcontinues⟩ | ⟨-, request, unixSecs, written, -, rfl⟩
    · exact hcontinues.opened (h.opened c (List.mem_of_getElem? hc))
    · exact (challenged_opened env request unixSecs written).1
  · rcases List.mem_append.mp ha with ha | ha
    · exact (h.attempts a ha).continues input
    · exact hnew a ha
  · rcases continues_back hi with ⟨c, hc, hcontinues⟩ | ⟨rfl, request, unixSecs, written, rfl, rfl⟩
    · have hpeer' : c.request.peer = own.fingerprintHex := hcontinues.request ▸ hpeer
      obtain ⟨a, ha, hline, hheard⟩ := h.ours i c hc hpeer'
      rcases hcontinues.heard with hsame | ⟨incoming, hinput, hincoming⟩
      · exact ⟨a, List.mem_append_left _ ha, hline, hsame ▸ hheard⟩
      · cases incoming with
        | frame m =>
          obtain ⟨a', ha', hline', hsent⟩ := hread i c m hc hpeer' hinput
          exact ⟨a', List.mem_append_left _ ha', hline', fun _ => hsent⟩
        | _ =>
          refine ⟨a, List.mem_append_left _ ha, hline, fun hsome => ?_⟩
          rw [hincoming] at hsome
          cases hsome
    · obtain ⟨-, hreq, hheard⟩ := challenged_opened env request unixSecs written
      rw [hreq] at hpeer
      obtain ⟨a, ha, hline⟩ := hrequest request unixSecs written rfl hpeer
      refine ⟨a, List.mem_append_right _ ha, hline, fun hsome => ?_⟩
      rw [hheard] at hsome
      cases hsome
  · obtain ⟨a, ha, hcomparing⟩ := h.pending k hk
    exact ⟨a, (List.getElem?_append_left (List.getElem?_eq_some_iff.mp ha).1).trans ha, hcomparing⟩
  · refine h.books.trans (Set.union_subset_union_right _ (Set.union_subset_union_right _ ?_))
    rintro f ⟨a, ha, hgrants⟩
    exact ⟨a, List.mem_append_left _ ha, hgrants⟩

/-- Another stage. -/
lemma Attempt.Sound.stage {ceremonies : List Ceremony} (ha : a.Sound env own ceremonies)
    {stage : Stage} (hdialed : stage ≠ .dialed) (hcomparing : stage = .comparing →
      a.pair.isSome = true ∧ a.confirmSent = false) (hconfirmed : stage ≠ .confirmed) :
    { a with stage }.Sound env own ceremonies :=
  ⟨fun i hline => (ha.line i hline).imp fun _ h => ⟨h.1, h.2.1, h.2.2, h.2.3⟩, ha.pair,
    fun h => absurd h hdialed, hcomparing, fun h => absurd h hconfirmed, ha.confirm, ha.heard⟩

lemma Attempt.Goes.stage (a : Attempt) (stage : Stage) : a.Goes { a with stage } :=
  ⟨rfl, rfl, fun _ => id, id, id, fun _ => id⟩

/-- An attempt ends, or waits no more. -/
lemma World.Sound.setStage (h : w.Sound env own b u d l) (hk : w.attempts[k]? = some a)
    (hpending : w.pending ≠ some k) (stage : Stage) (hdialed : stage ≠ .dialed)
    (hcomparing : stage ≠ .comparing) (hconfirmed : stage ≠ .confirmed) :
    (w.set k { a with stage }).Sound env own b u d l :=
  h.set hk hpending (.stage a stage) ((h.attempts a (List.mem_of_getElem? hk)).stage hdialed
    (fun heq => absurd heq hcomparing) hconfirmed)

/-- The screen is cleared. -/
lemma World.Sound.noPending (h : w.Sound env own b u d l) :
    World.Sound env own b u d l { w with pending := none } :=
  { h with pending := fun _ hk => (nomatch hk) }

lemma World.Sound.takePending (h : w.Sound env own b u d l) :
    w.takePending.Sound env own b u d l := by
  unfold World.takePending
  split
  · exact h
  · split
    · exact h.noPending
    · exact h.noPending.setStage ‹_› nofun .ended nofun nofun nofun

lemma World.takePending_pending (w : World) : w.takePending.pending = none := by
  unfold World.takePending
  split
  · assumption
  · split <;> rfl

lemma dialing_sound {ceremonies : List Ceremony} {line : Line} (address resolved : String)
    (pairingCode : Option String) (healed : Bool)
    (hline : ∀ i, line = .station i → ∃ c, ceremonies[i]? = some c ∧
      c.request = own.request pairingCode) :
    (dialing line address resolved pairingCode healed).Sound env own ceremonies := by
  refine ⟨fun i hi => ?_, fun _ hp => absurd hp (Option.not_mem_none _), fun _ => rfl, nofun, nofun,
    nofun, nofun⟩
  obtain ⟨c, hc, hrequest⟩ := hline i hi
  exact ⟨c, hc, hrequest, fun _ hp => absurd hp (Option.not_mem_none _),
    fun _ hm => absurd hm (Option.not_mem_none _)⟩

lemma ceremonies_request (env : Setting) (s : Station) (request : PairingRequest) (unixSecs : ℕ)
    (written : Bool) : (s.step env (.request request unixSecs written)).1.ceremonies =
      s.ceremonies ++ [env.challenged request unixSecs written] := rfl

/-- A dial starts an attempt, and at the station a task. -/
lemma World.Sound.dial (h : w.Sound env own b u d l) (address resolved : String)
    (pairingCode : Option String) (healed : Bool) (answering : Answering) :
    (w.dial env own address resolved pairingCode healed answering).Sound env own b u d l := by
  cases answering with
  | station unixSecs written =>
    have hceremonies := ceremonies_request env w.station (own.request pairingCode) unixSecs written
    have hrequest := (challenged_opened env (own.request pairingCode) unixSecs written).2.1
    generalize env.challenged (own.request pairingCode) unixSecs written = c at hceremonies hrequest
    simp only [World.dial]
    refine h.atStation (.request (own.request pairingCode) unixSecs written) _ (fun a ha => ?_)
      (fun _ _ _ _ _ => ⟨_, List.mem_singleton_self _, ?_⟩) ?_
    · obtain rfl := List.mem_singleton.mp ha
      refine dialing_sound address resolved pairingCode healed fun i hi => ?_
      obtain rfl := Line.station.inj hi
      rw [hceremonies]
      exact ⟨c, List.getElem?_concat_length, hrequest⟩
    · rfl
    · intro i c m hi hpeer hread
      cases hread
  | other certificate =>
    refine ⟨h.station, h.opened, fun a ha => ?_, fun i c hi hpeer => ?_, fun k hk => ?_, ?_⟩
    · rcases List.mem_append.mp ha with ha | ha
      · exact h.attempts a ha
      · obtain rfl := List.mem_singleton.mp ha
        exact dialing_sound address resolved pairingCode healed nofun
    · obtain ⟨a, ha, hrest⟩ := h.ours i c hi hpeer
      exact ⟨a, List.mem_append_left _ ha, hrest⟩
    · obtain ⟨a, ha, hcomparing⟩ := h.pending k hk
      exact ⟨a, (List.getElem?_append_left (List.getElem?_eq_some_iff.mp ha).1).trans ha,
        hcomparing⟩
    · refine h.books.trans (Set.union_subset_union_right _ (Set.union_subset_union_right _ ?_))
      rintro f ⟨a, ha, hgrants⟩
      exact ⟨a, List.mem_append_left _ ha, hgrants⟩

/-- Who has granted it is pinned, in the user's book and in the daemon's. -/
lemma World.Sound.pins (h : w.Sound env own b u d l) {fingerprintHex : String}
    {user daemon : List Peer} (ha : a ∈ w.attempts) (hgrants : a.Grants)
    (hline : a.line.certificate env = fingerprintHex)
    (huser : trusted user ⊆ trusted w.user ∪ {f | identity fingerprintHex = identity f})
    (hdaemon : trusted daemon ⊆ trusted w.daemon ∪ {f | identity fingerprintHex = identity f}) :
    World.Sound env own b u d l { w with user, daemon } := by
  refine { h with books := ?_ }
  have hgranted : ∀ f, identity fingerprintHex = identity f → f ∈ w.granted env :=
    fun f hid => ⟨a, ha, hline.symm ▸ hid, hgrants⟩
  rintro f (hf | hf)
  · exact (huser hf).elim (fun hf => h.books (Or.inl hf)) fun hid => Or.inr (Or.inr (hgranted f hid))
  · exact (hdaemon hf).elim (fun hf => h.books (Or.inr hf)) fun hid =>
      Or.inr (Or.inr (hgranted f hid))

/-- The inputs so far. -/
lemma World.Sound.event (h : w.Sound env own b u d l) (event : Event) :
    w.Sound env own b u d (l ++ [event]) := by
  refine { h with books := h.books.trans (Set.union_subset_union_right _ ?_) }
  refine Set.union_subset_union_left _ ?_
  rintro f ⟨call, hcall, hf⟩
  exact ⟨call, hcall.imp (List.mem_append_left _) (List.mem_append_left _), hf⟩

/-! ### What an event keeps -/

lemma pairPrepare_ok {m : WireMessage} {pair : PendingPair}
    (h : pairPrepare env own a m = .ok pair) :
    pair.peerFingerprint = a.line.certificate env ∧
      pair.verificationCode =
        verificationCode env.sha256 own.fingerprintHex (a.line.certificate env) ∧
      ∃ nodeName fingerprintHex code,
        m = .pairChallenge nodeName fingerprintHex code pair.stationPreApproved := by
  cases m with
  | pairChallenge nodeName fingerprintHex code preApproved =>
    simp only [pairPrepare] at h
    split_ifs at h
    obtain rfl := Except.ok.inj h
    exact ⟨rfl, rfl, nodeName, fingerprintHex, code, rfl⟩
  | _ => simp [pairPrepare] at h

lemma incoming_station {n : ℕ} {message m : WireMessage} (hm : w.incoming a n message = some m)
    (hline : a.line = .station i) (hc : w.station.ceremonies[i]? = some c) :
    c.sent[n]? = some m := by
  rw [World.incoming, hline] at hm
  simpa only [hc, Option.bind_some] using hm

/-- What an attempt that waits for its challenge has not. -/
lemma Attempt.Sound.fresh {ceremonies : List Ceremony} (ha : a.Sound env own ceremonies)
    (hstage : a.stage = .dialed) : a.pair = none ∧ a.heard = none ∧ a.confirmSent = false := by
  have hpair := ha.dialed hstage
  have hsent : a.confirmSent = false := by
    rw [← Bool.not_eq_true]
    intro hsent
    obtain ⟨p, hp, -⟩ := ha.confirm hsent
    rw [hpair] at hp
    cases hp
  refine ⟨hpair, ?_, hsent⟩
  rw [← Option.not_isSome_iff_eq_none]
  intro hheard
  rw [ha.heard hheard] at hsent
  cases hsent

/-- Only an attempt whose code is compared is on the screen. -/
lemma World.Sound.not_pending (h : w.Sound env own b u d l) (hk : w.attempts[k]? = some a)
    (hstage : a.stage ≠ .comparing) : w.pending ≠ some k := by
  intro hpending
  obtain ⟨a', ha', hcomparing⟩ := h.pending k hpending
  obtain rfl := Option.some.inj (hk.symm.trans ha')
  exact hstage hcomparing

/-- An attempt takes the challenge. -/
lemma World.Sound.challenged (h : w.Sound env own b u d l) (hk : w.attempts[k]? = some a)
    (hstage : a.stage = .dialed) {message m : WireMessage}
    (hm : w.incoming a 0 message = some m) {pair : PendingPair}
    (hpair : pairPrepare env own a m = .ok pair) :
    (w.set k { a with pair := some pair, stage := .challenged }).Sound env own b u d l := by
  have ha := h.attempts a (List.mem_of_getElem? hk)
  obtain ⟨hnone, hheard, hsent⟩ := ha.fresh hstage
  obtain ⟨hfingerprint, hcode, nodeName, fingerprintHex, code, rfl⟩ := pairPrepare_ok hpair
  refine h.set hk (h.not_pending hk (by simp [hstage])) ⟨rfl, rfl, ?_, id, id, fun _ => id⟩
    ⟨fun i hline => ?_, ?_, nofun, nofun, nofun, ?_, ?_⟩
  · rw [hnone]
    exact fun _ hp => absurd hp (Option.not_mem_none _)
  · obtain ⟨c, hc, hmeets⟩ := ha.line i hline
    refine ⟨c, hc, hmeets.request, ?_, hmeets.heard⟩
    rintro p ⟨⟩
    -- the first frame of the station is this challenge
    have hfirst := incoming_station hm hline hc
    rcases h.opened c (List.mem_of_getElem? hc) with ⟨hsent, -⟩ | ⟨m, hm', ⟨reason, rfl⟩ | rfl⟩
    · rw [hsent] at hfirst
      cases hfirst
    · cases hm'.symm.trans hfirst
    · exact (WireMessage.pairChallenge.inj (Option.some.inj (hfirst.symm.trans hm'))).2.2.2
  · rintro p ⟨⟩
    exact ⟨hfingerprint, hcode⟩
  · intro h'
    rw [hsent] at h'
    cases h'
  · intro h'
    rw [hheard] at h'
    cases h'

/-- Healing pins whoever answered. -/
lemma World.Sound.healed (h : w.Sound env own b u d l) (hk : w.attempts[k]? = some a)
    {pair : PendingPair} (hpair : a.pair = some pair) (turn : BookTurn) :
    ∃ user daemon, (if a.healed then w.persistHealedAddress turn pair else w) =
        { w with user, daemon } ∧
      World.Sound env own b u d l { w with user, daemon } := by
  split_ifs with hhealed
  · obtain ⟨user, huser, htrusted⟩ := pinUser_cases (w) turn pair.peerNodeName pair
    obtain ⟨daemon, hdaemon, hmirrored⟩ := mirrorPin_cases { w with user } turn pair
    have ha := List.mem_of_getElem? hk
    refine ⟨user, daemon, ?_, h.pins ha (Or.inr ⟨hhealed, ?_⟩) ?_ htrusted hmirrored⟩
    · rw [World.persistHealedAddress, huser, hdaemon]
    · rw [hpair]
      rfl
    · exact ((h.attempts a ha).pair pair hpair).1.symm
  · exact ⟨w.user, w.daemon, rfl, h⟩

lemma World.takePending_getElem? (hk : w.attempts[k]? = some a) (hpending : w.pending ≠ some k) :
    w.takePending.attempts[k]? = some a := by
  unfold World.takePending
  rcases hp : w.pending with _ | j
  · exact hk
  · dsimp only
    rcases hj : w.attempts[j]? with _ | a'
    · exact hk
    · exact (List.getElem?_set_ne fun hjk => hpending (hp.trans (congrArg some hjk))).trans hk

lemma World.Sound.challenge (h : w.Sound env own b u d l) (hk : w.attempts[k]? = some a)
    (hstage : a.stage = .dialed) {message m : WireMessage}
    (hm : w.incoming a 0 message = some m) (healing : BookTurn) (reads : Bool) :
    (w.challenge env own k a m healing reads).Sound env own b u d l := by
  have ha := h.attempts a (List.mem_of_getElem? hk)
  have hfresh := ha.fresh hstage
  have hpending := h.not_pending hk (by simp [hstage])
  unfold World.challenge
  rcases hprepare : pairPrepare env own a m with error | pair
  · exact h.setStage hk hpending .unreached nofun nofun nofun
  · dsimp only
    have h₁ := h.challenged hk hstage hm hprepare
    have hk₁ : (w.set k { a with pair := some pair, stage := .challenged }).attempts[k]? =
        some { a with pair := some pair, stage := .challenged } :=
      List.getElem?_set_self (List.getElem?_eq_some_iff.mp hk).1
    obtain ⟨user, daemon, heq, h₂⟩ := h₁.healed hk₁ rfl healing
    dsimp only at heq
    rw [heq]
    split_ifs with hknown happroved
    · exact h₂.setStage hk₁ hpending .connecting nofun nofun nofun
    · have ha₁ := h₁.attempts _ (List.mem_of_getElem? hk₁)
      refine h₂.set hk₁ hpending ⟨rfl, rfl, fun _ => id, id, fun _ => rfl, fun _ => id⟩ ?_
      refine ⟨fun i hline => (ha₁.line i hline).imp fun _ h => ⟨h.1, h.2.1, h.2.2, h.2.3⟩, ha₁.pair,
        nofun, nofun, fun _ => ⟨rfl, hfresh.2.1⟩, fun _ => ⟨pair, rfl, Or.inr happroved⟩, fun _ => rfl⟩
    · have h₃ := h₂.takePending
      have hk₃ := World.takePending_getElem? (w := { w.set k
        { a with pair := some pair, stage := .challenged } with user, daemon }) hk₁ hpending
      have hnone := World.takePending_pending { w.set k
        { a with pair := some pair, stage := .challenged } with user, daemon }
      have ha₃ := h₃.attempts _ (List.mem_of_getElem? hk₃)
      refine { h₃.set hk₃ (by rw [hnone]; exact nofun) (.stage _ .comparing) (ha₃.stage nofun
        (fun _ => ⟨rfl, hfresh.2.2⟩) nofun) with pending := ?_ }
      rintro j ⟨⟩
      exact ⟨_, List.getElem?_set_self (List.getElem?_eq_some_iff.mp hk₃).1, rfl⟩

/-- What was accepted is pinned. -/
lemma World.Sound.accepted (h : w.Sound env own b u d l) (hk : w.attempts[k]? = some a)
    (hpending : w.pending ≠ some k) {pair : PendingPair} (hpair : a.pair = some pair)
    (hgrants : a.Grants) (pinning : BookTurn) :
    (match w.pinControllerPeer pinning pair with
      | (w, true) => (w.mirrorPin pinning pair).set k { a with stage := .paired }
      | (w, false) => w.set k { a with stage := .ended }).Sound env own b u d l := by
  have ha := List.mem_of_getElem? hk
  have hline := ((h.attempts a ha).pair pair hpair).1.symm
  obtain ⟨user, huser, htrusted⟩ := pinUser_cases w pinning
    (if (Text.trim pair.peerNodeName).isEmpty then pair.address else pair.peerNodeName) pair
  have h₁ : World.Sound env own b u d l { w with user } :=
    h.pins ha hgrants hline htrusted Set.subset_union_left
  simp only [World.pinControllerPeer]
  rcases hresult : w.pinUser pinning
    (if (Text.trim pair.peerNodeName).isEmpty then pair.address else pair.peerNodeName) pair with
    ⟨w', _ | _⟩ <;> (rw [hresult] at huser; subst huser)
  · exact h₁.setStage hk hpending .ended nofun nofun nofun
  · obtain ⟨daemon, hdaemon, hmirrored⟩ := mirrorPin_cases { w with user } pinning pair
    dsimp only
    rw [hdaemon]
    have h₂ : World.Sound env own b u d l { w with user, daemon } :=
      h₁.pins ha hgrants hline Set.subset_union_left hmirrored
    exact h₂.setStage hk hpending .paired nofun nofun nofun

lemma World.Sound.answer (h : w.Sound env own b u d l) (hk : w.attempts[k]? = some a)
    (hstage : a.stage = .confirmed) {pair : PendingPair} (hpair : a.pair = some pair)
    {message m : WireMessage} (hm : w.incoming a 1 message = some m) (pinning : BookTurn) :
    (w.answer k a pair m pinning).Sound env own b u d l := by
  have ha := h.attempts a (List.mem_of_getElem? hk)
  obtain ⟨hsent, hheard⟩ := ha.confirmed hstage
  have hpending := h.not_pending hk (by simp [hstage])
  have h₁ : (w.set k { a with heard := some m, stage := .answered }).Sound env own b u d l := by
    refine h.set hk hpending ⟨rfl, rfl, fun _ => id, id, id, ?_⟩ ⟨fun i hline => ?_, ha.pair, nofun,
      nofun, nofun, ha.confirm, fun _ => hsent⟩
    · rw [hheard]
      exact fun _ hm => absurd hm (Option.not_mem_none _)
    · obtain ⟨c, hc, hmeets⟩ := ha.line i hline
      refine ⟨c, hc, hmeets.request, hmeets.approved, ?_⟩
      rintro m' ⟨⟩ haccepted
      have hmem := List.mem_of_getElem? (incoming_station hm hline hc)
      exact (h.station.ceremonies c (List.mem_of_getElem? hc)).challenged m hmem haccepted
  have hk₁ : (w.set k { a with heard := some m, stage := .answered }).attempts[k]? =
      some { a with heard := some m, stage := .answered } :=
    List.getElem?_set_self (List.getElem?_eq_some_iff.mp hk).1
  have hended := h₁.setStage hk₁ hpending .ended nofun nofun nofun
  cases m with
  | accepted =>
    refine h₁.accepted hk₁ hpending hpair (Or.inl ⟨⟨_, rfl, trivial⟩, ?_⟩) pinning
    obtain ⟨p, hp, hwhy⟩ := ha.confirm hsent
    exact hwhy.imp_right fun happroved => ⟨p, hp, happroved⟩
  | _ => exact hended

/-- A confirmation gets to the station. -/
lemma World.Sound.delivered (h : w.Sound env own b u d l) (hk : w.attempts[k]? = some a)
    (hline : a.line = .station i) (hsent : a.confirmSent = true) (m : WireMessage) :
    (w.atStation env (.read i (.frame m))).Sound env own b u d l := by
  have hstep := h.atStation (.read i (.frame m)) []
    (fun a ha => absurd ha List.not_mem_nil) (fun _ _ _ h => by cases h) ?_
  · rwa [List.append_nil] at hstep
  · rintro j c m' hc hpeer ⟨⟩
    exact ⟨a, List.mem_of_getElem? hk, hline, hsent⟩

lemma World.Sound.foreign (h : w.Sound env own b u d l) (hforeign : w.foreign own input = true) :
    (w.atStation env input).Sound env own b u d l := by
  have hstep := h.atStation input [] (fun a ha => absurd ha List.not_mem_nil) ?_ ?_
  · rwa [List.append_nil] at hstep
  · rintro request unixSecs written rfl hpeer
    simp [World.foreign, hpeer] at hforeign
  · rintro j c m hc hpeer rfl
    simp [World.foreign, hc, hpeer] at hforeign

/-- The user confirms the code on the screen. -/
lemma World.Sound.confirm (h : w.Sound env own b u d l) (hpending : w.pending = some k)
    (hk : w.attempts[k]? = some a) :
    World.Sound env own b u d l
      { w.set k { a with compared := true, confirmSent := true, stage := .confirmed } with
        pending := none } := by
  obtain ⟨a', ha', hcomparing⟩ := h.pending k hpending
  obtain rfl := Option.some.inj (hk.symm.trans ha')
  have ha := h.attempts a (List.mem_of_getElem? hk)
  obtain ⟨hpair, hsent⟩ := ha.comparing hcomparing
  have hheard : a.heard = none := by
    rw [← Option.not_isSome_iff_eq_none]
    intro hheard
    rw [ha.heard hheard] at hsent
    cases hsent
  refine h.noPending.set hk nofun ⟨rfl, rfl, fun _ => id, fun _ => rfl, fun _ => rfl, fun _ => id⟩ ?_
  obtain ⟨p, hp⟩ := Option.isSome_iff_exists.mp hpair
  exact ⟨fun i hline => (ha.line i hline).imp fun _ h => ⟨h.1, h.2.1, h.2.2, h.2.3⟩, ha.pair,
    nofun, nofun, fun _ => ⟨rfl, hheard⟩, fun _ => ⟨p, hp, Or.inl rfl⟩, fun _ => rfl⟩

/-- A call on a book that is not an attempt's. -/
lemma World.Sound.call (h : w.Sound env own b u d l) (user daemon : List Peer)
    (huser : trusted user ⊆ trusted w.user ∪ called l)
    (hdaemon : trusted daemon ⊆ trusted w.daemon ∪ called l) :
    World.Sound env own b u d l { w with user, daemon } := by
  refine { h with books := ?_ }
  rintro f (hf | hf)
  · exact (huser hf).elim (fun hf => h.books (Or.inl hf)) fun hf => Or.inr (Or.inl hf)
  · exact (hdaemon hf).elim (fun hf => h.books (Or.inr hf)) fun hf => Or.inr (Or.inl hf)

lemma World.Sound.turn (h : w.Sound env own b u d l) (hk : w.attempts[k]? = some a)
    (event : Event) : (w.turn env own k a event).Sound env own b u d l := by
  cases event with
  | redial j found answering =>
    simp only [World.turn]
    by_cases hstage : a.stage = .unreached
    · have hended := h.setStage hk (h.not_pending hk (by simp [hstage])) .ended nofun nofun nofun
      rw [if_pos hstage]
      split
      · exact hended.dial _ _ _ _ answering
      · exact hended
    · rwa [if_neg hstage]
  | challenge j message healing reads =>
    simp only [World.turn]
    split
    · exact h.challenge hk ‹_› ‹_› healing reads
    · exact h
  | deliver j =>
    simp only [World.turn]
    split
    · exact h.delivered hk ‹_› ‹_› _
    · exact h
  | answer j message pinning =>
    simp only [World.turn]
    split
    · exact h.answer hk ‹_› ‹_› ‹_› pinning
    · exact h
  | fail j =>
    simp only [World.turn]
    split
    · exact h.setStage hk (h.not_pending hk (by simp [*])) .unreached nofun nofun nofun
    · split_ifs
      · exact h.takePending
      · exact h
    · exact h.setStage hk (h.not_pending hk (by simp [*])) .ended nofun nofun nofun
    · exact h
  | _ => exact h

lemma World.Sound.step (h : w.Sound env own b u d l) (event : Event) :
    (w.step env own event).1.Sound env own b u d (l ++ [event]) := by
  have h' := h.event event
  have hturn : ∀ k, (match w.attempts[k]? with
      | none => (w, ())
      | some a => (w.turn env own k a event, ())).1.Sound env own b u d (l ++ [event]) := by
    intro k
    rcases hk : w.attempts[k]? with _ | a
    · exact h'
    · exact h'.turn hk event
  cases event with
  | station input =>
    simp only [World.step]
    split_ifs with hforeign
    · exact h'.foreign hforeign
    · exact h'
  | connect address resolved pairingCode answering =>
    exact h'.takePending.dial address resolved pairingCode false answering
  | confirm =>
    simp only [World.step]
    rcases hpending : w.pending with _ | k
    · exact h'
    · rcases hk : w.attempts[k]? with _ | a
      · simpa only [Option.bind_some, hk, Option.map_none] using h'
      · simpa only [Option.bind_some, hk, Option.map_some] using h'.confirm hpending hk
  | cancel => exact h'.takePending
  | userBook call =>
    refine h'.call (call.done w.user) w.daemon ?_ Set.subset_union_left
    refine (trusted_done call w.user).trans (Set.union_subset_union_right _ fun f hf => ?_)
    exact ⟨call, Or.inl (List.mem_append_right _ List.mem_cons_self), hf⟩
  | daemonBook call =>
    refine h'.call w.user (call.done w.daemon) Set.subset_union_left ?_
    refine (trusted_done call w.daemon).trans (Set.union_subset_union_right _ fun f hf => ?_)
    exact ⟨call, Or.inr (List.mem_append_right _ List.mem_cons_self), hf⟩
  | redial k found answering => exact hturn k
  | challenge k message healing reads => exact hturn k
  | deliver k => exact hturn k
  | answer k message pinning => exact hturn k
  | fail k => exact hturn k

/-- Both sides after the events. -/
abbrev worldAfter (env : Setting) (own : Dialer) (b : PeerBook) (u d : List Peer)
    (l : List Event) : World :=
  Trace.final (World.step env own) (World.start b u d) l

lemma World.sound_after (env : Setting) (own : Dialer) (b : PeerBook) (u d : List Peer)
    (l : List Event) : (worldAfter env own b u d l).Sound env own b u d l := by
  refine Trace.always (I := fun l w => World.Sound env own b u d l w) ?_ fun _ event h =>
    h.step event
  exact ⟨Station.sound_start env b, fun _ hc => absurd hc List.not_mem_nil,
    fun _ ha => absurd ha List.not_mem_nil, fun _ _ hi => (nomatch hi), fun _ hk => (nomatch hk),
    Set.subset_union_left⟩

/-- **Both sides agree.** However the attempts of one computer, the tasks of the station and all
else interleave, an attempt that dialed the station talks to one task. Both show one code; the
station says that a typed code was its own only if the attempt sent the code that was on its screen;
and an attempt that was let in has let the station pin it, for as long as the user there does not
unpin it. A task that was confirmed under this computer's certificate was confirmed by an attempt
of it, after a click, or after the station took the typed code. -/
theorem both_sides_agree (env : Setting) (own : Dialer) (b : PeerBook) (u d : List Peer)
    (l : List Event) :
    let w := worldAfter env own b u d l
    (∀ a ∈ w.attempts, ∀ i, a.line = .station i →
      ∃ c, w.station.ceremonies[i]? = some c ∧ c.request = own.request a.pairingCode ∧
        (∀ pair ∈ a.pair, pair.peerFingerprint = env.localFingerprint ∧
          pair.verificationCode =
            verificationCode env.sha256 env.localFingerprint c.request.peer ∧
          (pair.stationPreApproved = true → c.Typed env w.inputs)) ∧
        ((∃ m ∈ a.heard, IsAccepted m) → c.Earned env w.inputs w.station.queue ∧
          own.fingerprintHex ∈ trusted w.station.book.peers ∪ unpinned w.inputs)) ∧
    ∀ i c, w.station.ceremonies[i]? = some c → c.request.peer = own.fingerprintHex →
      c.heard.isSome = true →
      ∃ a ∈ w.attempts, a.line = .station i ∧ (a.compared = true ∨ c.Typed env w.inputs) := by
  intro w
  have h : w.Sound env own b u d l := World.sound_after env own b u d l
  refine ⟨fun a ha i hline => ?_, fun i c hc hpeer hheard => ?_⟩
  · have hsound := h.attempts a ha
    obtain ⟨c, hc, hmeets⟩ := hsound.line i hline
    have hceremony := h.station.ceremonies c (List.mem_of_getElem? hc)
    refine ⟨c, hc, hmeets.request, fun pair hpair => ⟨?_, ?_, fun happroved => ?_⟩, ?_⟩
    · rw [(hsound.pair pair hpair).1, hline]
      rfl
    · rw [(hsound.pair pair hpair).2, hline, hmeets.request]
      exact verificationCode_comm env.sha256 _ _
    · exact hceremony.typed ((hmeets.approved pair hpair).symm.trans happroved)
    · rintro ⟨m, hm, haccepted⟩
      have hphase := hmeets.heard m hm haccepted
      have hpinned := h.station.pinned c (List.mem_of_getElem? hc) (Or.inr hphase)
      have hearned := hceremony.phase
      simp only [hphase] at hearned
      rw [hmeets.request] at hpinned
      exact ⟨hearned, hpinned⟩
  · obtain ⟨a, ha, hline, hsent⟩ := h.ours i c hc hpeer
    have hsound := h.attempts a ha
    obtain ⟨pair, hpair, hwhy⟩ := hsound.confirm (hsent hheard)
    refine ⟨a, ha, hline, hwhy.imp_right fun happroved => ?_⟩
    obtain ⟨c', hc', hmeets⟩ := hsound.line i hline
    obtain rfl := Option.some.inj (hc.symm.trans hc')
    exact (h.station.ceremonies c (List.mem_of_getElem? hc)).typed
      ((hmeets.approved pair hpair).symm.trans happroved)

/-- **What an attempt pins.** Along every run, whoever is trusted here was so before, was pinned by
another call on a book, or answered an attempt of this computer: it accepted after the user had
confirmed the code on the screen, or after it had itself said that the typed code was right, or it
answered at an address that discovery had found for a stale one. -/
theorem attempts_pin (env : Setting) (own : Dialer) (b : PeerBook) (u d : List Peer)
    (l : List Event) :
    trusted (worldAfter env own b u d l).user ∪ trusted (worldAfter env own b u d l).daemon ⊆
      trusted u ∪ trusted d ∪ (called l ∪ (worldAfter env own b u d l).granted env) :=
  (World.sound_after env own b u d l).books

end TheKvm.Ceremonies

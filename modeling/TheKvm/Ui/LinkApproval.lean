import TheKvm.Daemon.LinkMemory
import TheKvm.Protocol.Control
import TheKvm.Ui.FollowLink

/-!
What the UI approves: the links that wait for the local user.

A poll lists what waits, answers by itself what carries the epoch of the supervised child, and
shows the first of the rest. A click is resolved against what was listed last, and is answered
by the daemon when its request gets there.
-/

namespace TheKvm

open Approvals (LinkMemory LinkOp)

/-- A lease of an outbound link, held while its child lives. -/
structure LinkLease where
  fingerprintHex : String
  linkId : Option UInt64
  deriving DecidableEq

/-- What made the UI ask: a click at the link shown, or an epoch like that of the child. -/
inductive Grounds
  | click (shown : LinkView)
  | silent (child : DialChild)
  deriving DecidableEq

/-- An `ApproveLink` or a `RejectLink` on its way. -/
structure LinkRequest where
  fingerprintHex : String
  linkId : Option UInt64
  approved : Bool
  grounds : Grounds
  deriving DecidableEq

inductive LinkResponse
  | error (message : String)
  | linkApproved (fingerprintHex : String) (linkId : UInt64)
  | linkRejected (fingerprintHex : String) (linkId : UInt64)
  deriving DecidableEq

/-- The daemon's side of the link approvals, and the UI's. -/
structure LinkDesk where
  memory : LinkMemory
  leases : List LinkLease
  slot : Option DialChild
  /-- what a poll has still to store and to show -/
  polled : Option (List LinkView)
  pendingLinks : List LinkView
  /-- what the event loop has still to show -/
  displays : List (Option LinkView)
  displayed : Option LinkView
  requests : List LinkRequest

/-- The device a live lease names for an epoch, in the order the leases are iterated in. -/
def outboundEpochOwner (leases : List LinkLease) (linkId : UInt64) : Option String :=
  (leases.find? (·.linkId = some linkId)).map (·.fingerprintHex)

/-- The device and the epoch are those of the link that was shown at the click; or the child was
dialled by a Connect of the user, to this device and on the epoch minted for it. -/
def Grounds.Cover (grounds : Grounds) (approved : Bool) (fingerprintHex : String)
    (linkId : Option UInt64) : Prop :=
  match grounds with
  | .click shown =>
    Text.toAsciiLowercase shown.fingerprintHex = Text.toAsciiLowercase fingerprintHex ∧
      shown.linkId = linkId
  | .silent child => approved = true ∧ child.plan.dialback = false ∧
      Text.toAsciiLowercase child.peer = Text.toAsciiLowercase fingerprintHex ∧
        child.plan.linkId = linkId

instance (grounds : Grounds) (approved : Bool) (fingerprintHex : String)
    (linkId : Option UInt64) : Decidable (grounds.Cover approved fingerprintHex linkId) :=
  match grounds with
  | .click _ => inferInstanceAs (Decidable (_ ∧ _))
  | .silent _ => inferInstanceAs (Decidable (_ ∧ _))

namespace LinkDesk

inductive Op
  | daemon (op : LinkOp)
  | leaseBegin (lease : LinkLease)
  | leaseEnd (lease : LinkLease)
  | launch (child : DialChild)
  | clear
  | poll (listing : List LinkView)
  | store
  | refresh
  | click (approved : Bool)
  | deliver (i : ℕ) (leases : List LinkLease)

def init : LinkDesk := ⟨.empty, [], none, none, [], [], none, []⟩

/-! ### The daemon -/

/-- `ControlRequest::ApproveLink`. -/
def approveLink (memory : LinkMemory) (leases : List LinkLease) (fingerprintHex : String)
    (linkId : Option UInt64) : LinkMemory × LinkResponse :=
  if isFingerprint fingerprintHex then
    match linkId with
    | none => (memory, .error "epoch-less links never queue for approval")
    | some linkId =>
      let fingerprintHex := Text.toAsciiLowercase fingerprintHex
      if (outboundEpochOwner leases linkId).any (· ≠ fingerprintHex) then
        (memory, .error "that link epoch belongs to a different computer")
      else
        let (memory, answer) := memory.decide fingerprintHex linkId true
        if answer = .queue (.decided true) then (memory, .linkApproved fingerprintHex linkId)
        else (memory, .error "pending link request was not found")
  else (memory, .error "peer fingerprint must contain 64 hexadecimal characters")

/-- `ControlRequest::RejectLink`. -/
def rejectLink (memory : LinkMemory) (fingerprintHex : String) (linkId : Option UInt64) :
    LinkMemory × LinkResponse :=
  if isFingerprint fingerprintHex then
    match linkId with
    | none => (memory, .error "epoch-less links never queue for approval")
    | some linkId =>
      let fingerprintHex := Text.toAsciiLowercase fingerprintHex
      let (memory, answer) := memory.decide fingerprintHex linkId false
      if answer = .queue (.decided true) then (memory, .linkRejected fingerprintHex linkId)
      else (memory, .error "pending link request was not found")
  else (memory, .error "peer fingerprint must contain 64 hexadecimal characters")

def handle (memory : LinkMemory) (leases : List LinkLease) (request : LinkRequest) :
    LinkMemory × LinkResponse :=
  if request.approved then approveLink memory leases request.fingerprintHex request.linkId
  else rejectLink memory request.fingerprintHex request.linkId

/-! ### The UI -/

/-- The links are those the daemon has queued, in some order. -/
def Lists (s : LinkDesk) (listing : List LinkView) : Prop :=
  (listing.map fun link => (Text.toAsciiLowercase link.fingerprintHex, link.linkId)).Perm
    (s.memory.queue.pending.map fun entry => (entry.1.1, some entry.1.2))

instance (s : LinkDesk) (listing : List LinkView) : Decidable (s.Lists listing) :=
  inferInstanceAs (Decidable (List.Perm _ _))

/-- The link carries the epoch of the supervised child. -/
def isOurs (s : LinkDesk) (link : LinkView) : Bool :=
  link.linkId.isSome && link.linkId = s.slot.bind (·.plan.linkId)

/-- What is answered without asking. -/
def silentRequests (s : LinkDesk) (listing : List LinkView) : List LinkRequest :=
  match s.slot with
  | some child => (listing.filter s.isOurs).map fun link =>
      ⟨link.fingerprintHex, link.linkId, true, .silent child⟩
  | none => []

/-- `decide_incoming_link`: the epoch of the first listed link of the device that is shown. -/
def clickRequest (s : LinkDesk) (approved : Bool) : List LinkRequest :=
  match s.displayed with
  | some shown =>
    match (s.pendingLinks.find? (·.fingerprintHex = shown.fingerprintHex)).bind (·.linkId) with
    | some linkId => [⟨shown.fingerprintHex, some linkId, approved, .click shown⟩]
    | none => []
  | none => []

/-- What a step asks of the daemon. -/
def asks (s : LinkDesk) : Op → List LinkRequest
  | .poll listing => if s.Lists listing then s.silentRequests listing else []
  | .click approved => s.clickRequest approved
  | _ => []

def poll (s : LinkDesk) (listing : List LinkView) : LinkDesk :=
  if s.Lists listing then
    { s with
      polled := some (listing.filter fun link => !s.isOurs link)
      requests := s.requests ++ s.silentRequests listing }
  else s

/-- The visible links are stored, and the first is handed to the event loop. -/
def store (s : LinkDesk) : LinkDesk :=
  match s.polled with
  | some visible =>
    { s with polled := none, pendingLinks := visible, displays := s.displays ++ [visible.head?] }
  | none => s

def refresh (s : LinkDesk) : LinkDesk :=
  match s.displays with
  | shown :: displays => { s with displayed := shown, displays }
  | [] => s

/-- A request gets to the daemon, whose leases are iterated in the order given. -/
def deliver (s : LinkDesk) (i : ℕ) (leases : List LinkLease) : LinkDesk :=
  match s.requests[i]? with
  | some request =>
    if leases.Perm s.leases then
      { s with memory := (handle s.memory leases request).1, requests := s.requests.eraseIdx i }
    else s
  | none => s

def step (s : LinkDesk) : Op → LinkDesk
  | .daemon op => { s with memory := (s.memory.step op).1 }
  | .leaseBegin lease => { s with leases := s.leases.filter (· ≠ lease) ++ [lease] }
  | .leaseEnd lease => { s with leases := s.leases.filter (· ≠ lease) }
  | .launch child => { s with slot := some child }
  | .clear => { s with slot := none }
  | .poll listing => s.poll listing
  | .store => s.store
  | .refresh => s.refresh
  | .click approved => { s with requests := s.requests ++ s.clickRequest approved }
  | .deliver i leases => s.deliver i leases

/-- The desk behind the steps of a run. -/
abbrev after (ops : List Op) : LinkDesk :=
  Trace.final (fun s op => (s.step op, ())) init ops

/-! ### What the user did -/

/-- The request asks for what its grounds cover. -/
def Covered (request : LinkRequest) : Prop :=
  request.grounds.Cover request.approved request.fingerprintHex request.linkId

instance (request : LinkRequest) : Decidable (Covered request) :=
  inferInstanceAs (Decidable (Grounds.Cover _ _ _ _))

/-- The daemon grants what the user allowed, or what the user's own Connect covers, and refuses
what the user denied. -/
def AnswersRight (s : LinkDesk) : Op → Prop
  | .deliver i leases => ∀ request, s.requests[i]? = some request → leases.Perm s.leases →
      ∀ fingerprintHex linkId,
        ((handle s.memory leases request).2 = .linkApproved fingerprintHex linkId →
          request.grounds.Cover true fingerprintHex (some linkId)) ∧
        ((handle s.memory leases request).2 = .linkRejected fingerprintHex linkId →
          request.grounds.Cover false fingerprintHex (some linkId))
  | _ => True

/-- A listed link with the epoch of the child is of the device that a Connect of the user dialled
on it; and a click finds the link that is shown, or none of its device. -/
def Clear (s : LinkDesk) : Op → Prop
  | .poll listing => s.Lists listing → ∀ child link, s.slot = some child → link ∈ listing →
      s.isOurs link = true → child.plan.dialback = false ∧
        Text.toAsciiLowercase child.peer = Text.toAsciiLowercase link.fingerprintHex
  | .click _ => ∀ shown link, s.displayed = some shown →
      s.pendingLinks.find? (·.fingerprintHex = shown.fingerprintHex) = some link →
        link.linkId.isSome = true → shown.linkId = link.linkId
  | _ => True

/-! ### What is asked -/

variable {s : LinkDesk} {request : LinkRequest}

lemma isOurs_iff {link : LinkView} : s.isOurs link = true ↔
    link.linkId.isSome = true ∧ link.linkId = s.slot.bind (·.plan.linkId) := by
  simp [isOurs]

lemma mem_silentRequests {listing : List LinkView} {child : DialChild}
    (hslot : s.slot = some child) : request ∈ s.silentRequests listing ↔
      ∃ link ∈ listing, s.isOurs link = true ∧
        request = ⟨link.fingerprintHex, link.linkId, true, .silent child⟩ := by
  unfold silentRequests
  rw [hslot]
  simp only [List.mem_map, List.mem_filter, and_assoc, eq_comm]

lemma mem_clickRequest {approved : Bool} : request ∈ s.clickRequest approved ↔
    ∃ shown link, s.displayed = some shown ∧
      s.pendingLinks.find? (·.fingerprintHex = shown.fingerprintHex) = some link ∧
        link.linkId.isSome = true ∧
          request = ⟨shown.fingerprintHex, link.linkId, approved, .click shown⟩ := by
  unfold clickRequest
  cases s.displayed with
  | none => simp
  | some shown =>
    dsimp only
    cases hfind : s.pendingLinks.find? (·.fingerprintHex = shown.fingerprintHex) with
    | none => simp [hfind]
    | some link =>
      cases hid : link.linkId with
      | none => simp [hfind, hid]
      | some linkId => simp [hfind, hid]

/-- The UI asks only for what the user did, exactly at the steps that are clear. -/
lemma covered_iff_clear (s : LinkDesk) (op : Op) :
    (∀ request ∈ s.asks op, Covered request) ↔ s.Clear op := by
  cases op with
  | poll listing =>
    unfold asks Clear
    dsimp only
    split_ifs with hlists
    · rw [imp_iff_right hlists]
      cases hslot : s.slot with
      | none => simp [silentRequests, hslot]
      | some child =>
        constructor
        · intro h child' link hchild hlink hours
          obtain rfl := Option.some.inj hchild
          obtain ⟨-, hdialled, hpeer, -⟩ := h _ ((mem_silentRequests hslot).mpr
            ⟨link, hlink, hours, rfl⟩)
          exact ⟨hdialled, hpeer⟩
        · intro h request hrequest
          obtain ⟨link, hlink, hours, rfl⟩ := (mem_silentRequests hslot).mp hrequest
          obtain ⟨hdialled, hpeer⟩ := h child link rfl hlink hours
          have hid := (isOurs_iff.mp hours).2
          rw [hslot] at hid
          exact ⟨rfl, hdialled, hpeer, hid.symm⟩
    · exact iff_of_true (fun _ h => by cases h) fun h => absurd h hlists
  | click approved =>
    constructor
    · intro h shown link hshown hfind hsome
      exact (h _ (mem_clickRequest.mpr ⟨shown, link, hshown, hfind, hsome, rfl⟩)).2
    · intro h request hrequest
      obtain ⟨shown, link, hshown, hfind, hsome, rfl⟩ := mem_clickRequest.mp hrequest
      exact ⟨rfl, h shown link hshown hfind hsome⟩
  | _ => exact iff_of_true (fun _ h => by cases h) trivial

/-- Requests on their way were asked. -/
lemma mem_requests_step {op : Op} (h : request ∈ (s.step op).requests) :
    request ∈ s.requests ∨ request ∈ s.asks op := by
  cases op with
  | poll listing =>
    change request ∈ (s.poll listing).requests at h
    unfold poll at h
    unfold asks
    dsimp only
    split_ifs at h ⊢
    · exact List.mem_append.mp h
    · exact Or.inl h
  | click approved => exact List.mem_append.mp h
  | store =>
    change request ∈ s.store.requests at h
    unfold store at h
    split at h
    · exact Or.inl h
    · exact Or.inl h
  | refresh =>
    change request ∈ s.refresh.requests at h
    unfold refresh at h
    split at h
    · exact Or.inl h
    · exact Or.inl h
  | deliver i leases =>
    change request ∈ (s.deliver i leases).requests at h
    unfold deliver at h
    split at h
    · split_ifs at h
      · exact Or.inl (List.mem_of_mem_eraseIdx h)
      · exact Or.inl h
    · exact Or.inl h
  | _ => exact Or.inl h

/-! ### What is answered -/

variable {fingerprintHex : String} {linkId : Option UInt64}

/-- What is answered to an approval: an error, or the key that was asked for. -/
lemma approveLink_cases (memory : LinkMemory) (leases : List LinkLease) (fingerprintHex : String)
    (linkId : Option UInt64) :
    (∃ message, (approveLink memory leases fingerprintHex linkId).2 = .error message) ∨
      ∃ epoch, linkId = some epoch ∧ (approveLink memory leases fingerprintHex linkId).2 =
        .linkApproved (Text.toAsciiLowercase fingerprintHex) epoch := by
  unfold approveLink
  split_ifs
  · cases linkId with
    | none => exact Or.inl ⟨_, rfl⟩
    | some epoch =>
      dsimp only
      split_ifs
      · exact Or.inl ⟨_, rfl⟩
      · exact Or.inr ⟨epoch, rfl, rfl⟩
      · exact Or.inl ⟨_, rfl⟩
  · exact Or.inl ⟨_, rfl⟩

lemma rejectLink_cases (memory : LinkMemory) (fingerprintHex : String) (linkId : Option UInt64) :
    (∃ message, (rejectLink memory fingerprintHex linkId).2 = .error message) ∨
      ∃ epoch, linkId = some epoch ∧ (rejectLink memory fingerprintHex linkId).2 =
        .linkRejected (Text.toAsciiLowercase fingerprintHex) epoch := by
  unfold rejectLink
  split_ifs
  · cases linkId with
    | none => exact Or.inl ⟨_, rfl⟩
    | some epoch =>
      dsimp only
      split_ifs
      · exact Or.inr ⟨epoch, rfl, rfl⟩
      · exact Or.inl ⟨_, rfl⟩
  · exact Or.inl ⟨_, rfl⟩

/-- What is answered to a request: an error, or what was asked for. -/
lemma handle_cases (memory : LinkMemory) (leases : List LinkLease) (request : LinkRequest) :
    (∃ message, (handle memory leases request).2 = .error message) ∨
      ∃ epoch, request.linkId = some epoch ∧ (handle memory leases request).2 =
        if request.approved then .linkApproved (Text.toAsciiLowercase request.fingerprintHex) epoch
        else .linkRejected (Text.toAsciiLowercase request.fingerprintHex) epoch := by
  unfold handle
  split_ifs
  · exact approveLink_cases memory leases request.fingerprintHex request.linkId
  · exact rejectLink_cases memory request.fingerprintHex request.linkId

/-- What covers a device covers it in lower case. -/
lemma cover_toAsciiLowercase {grounds : Grounds} {approved : Bool}
    (h : grounds.Cover approved fingerprintHex linkId) :
    grounds.Cover approved (Text.toAsciiLowercase fingerprintHex) linkId := by
  cases grounds with
  | click shown => exact ⟨h.1.trans (Text.toAsciiLowercase_idem _).symm, h.2⟩
  | silent child => exact ⟨h.1, h.2.1, h.2.2.1.trans (Text.toAsciiLowercase_idem _).symm, h.2.2.2⟩

/-- A request that its grounds cover is answered as they say. -/
lemma answersRight_of_covered (hrequests : ∀ request ∈ s.requests, Covered request) (op : Op) :
    s.AnswersRight op := by
  cases op with
  | deliver i leases =>
    intro request hget _ answered epoch
    have hcovered := hrequests request (List.mem_of_getElem? hget)
    unfold Covered at hcovered
    rcases handle_cases s.memory leases request with ⟨message, herror⟩ | ⟨asked, hid, hanswer⟩
    · rw [herror]
      exact ⟨by simp, by simp⟩
    · rw [hanswer]
      rw [hid] at hcovered
      cases happroved : request.approved with
      | true =>
        rw [if_pos rfl]
        refine ⟨fun h => ?_, by simp⟩
        obtain ⟨rfl, rfl⟩ := LinkResponse.linkApproved.inj h
        exact cover_toAsciiLowercase (happroved ▸ hcovered)
      | false =>
        rw [if_neg Bool.false_ne_true]
        refine ⟨by simp, fun h => ?_⟩
        obtain ⟨rfl, rfl⟩ := LinkResponse.linkRejected.inj h
        exact cover_toAsciiLowercase (happroved ▸ hcovered)
  | _ => trivial

/-- In a run whose steps are clear, every request on its way is covered. -/
lemma covered_after {ops : List Op} (h : Trace.Each (fun m op => (after m).Clear op) ops) :
    ∀ request ∈ (after ops).requests, Covered request := by
  refine Trace.invariant (I := fun _ s => ∀ request ∈ LinkDesk.requests s, Covered request)
    (P := fun m op => (after m).Clear op) ?_ ?_ h
  · exact fun _ h => by cases h
  · intro m op hkept hclear request hrequest
    rcases mem_requests_step hrequest with hold | hnew
    · exact hkept request hold
    · exact (covered_iff_clear _ op).mpr hclear request hnew

/-- **The UI asks only for what the user did, exactly in the runs whose polls and clicks are
clear; and in those the daemon grants nothing else.** -/
theorem answersRight_of_clear (ops : List Op) :
    (Trace.Each (fun m op => ∀ request ∈ (after m).asks op, Covered request) ops ↔
      Trace.Each (fun m op => (after m).Clear op) ops) ∧
    (Trace.Each (fun m op => (after m).Clear op) ops →
      Trace.Each (fun m op => (after m).AnswersRight op) ops) := by
  constructor
  · exact Trace.each_congr fun _ op _ => covered_iff_clear _ op
  · intro h m op hm
    exact answersRight_of_covered (covered_after (h.earlier hm)) op

def office : LinkView := ⟨String.ofList (List.replicate 64 'b'), "office", "office", some 7⟩

/-- The user allows a link of the office. -/
def allowOffice : List Op :=
  [.daemon (.register office.fingerprintHex (some 7)), .poll [office], .store, .refresh,
    .click true, .deliver 0 []]

theorem allowed_office_granted :
    Trace.Each (fun m op => (after m).AnswersRight op) allowOffice ∧
      ((after (allowOffice.take 5)).requests.map fun request =>
        (handle (after (allowOffice.take 5)).memory [] request).2) =
          [.linkApproved office.fingerprintHex 7] := by
  have hclear := (answersRight_of_clear allowOffice).1.mp (by decide +kernel)
  exact ⟨(answersRight_of_clear allowOffice).2 hclear, by decide +kernel⟩

/-- The user has connected to another computer on the epoch that the office offers. -/
def borrowedEpoch : List Op :=
  [.launch ⟨⟨"desk", false, some 7⟩, String.ofList (List.replicate 64 'a'), true⟩,
    .daemon (.register office.fingerprintHex (some 7)), .poll [office], .deliver 0 []]

/-- The office is let in, and nobody was asked. -/
theorem borrowed_epoch_granted :
    ¬∀ ops : List Op, Trace.Each (fun m op => (after m).AnswersRight op) ops := by
  intro h
  have hlast := h borrowedEpoch (borrowedEpoch.take 3) (.deliver 0 []) (by rfl)
    ⟨office.fingerprintHex, some 7, true,
      .silent ⟨⟨"desk", false, some 7⟩, String.ofList (List.replicate 64 'a'), true⟩⟩
    (by decide) (by decide) office.fingerprintHex 7
  exact absurd (hlast.1 (by decide +kernel)) (by decide)

end LinkDesk

end TheKvm

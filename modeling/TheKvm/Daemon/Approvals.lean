import TheKvm.Core.Router
import TheKvm.Lib.Text
import TheKvm.Lib.Trace
import Mathlib.Data.List.Nodup

/-!
The queues of requests that wait for the local user.

A request is listed under its key and its waiter holds the receiver of a one-shot channel.
The user's decision takes the entry off the list and goes into the channel, where it is held
until the waiter comes for it. The two queues of the daemon differ in their keys and limits.
-/

namespace TheKvm.Approvals

/-! ### The queue -/

/-- What the queues of the daemon differ in. -/
structure Rules (κ : Type) where
  /-- The device a key belongs to. -/
  device : κ → String
  capacity : ℕ
  capacity_pos : 0 < capacity
  timeoutMs : ℕ
  full : String
  awaiting : String
  paused : String

/-- `PairingApprovals`, keyed by the lower-case fingerprint. -/
def pairingApprovals : Rules String where
  device := id
  capacity := 16
  capacity_pos := Nat.succ_pos 15
  timeoutMs := 1800 * 1000
  full := "too many pending pairing requests"
  awaiting := "pairing is already awaiting local approval"
  paused := "pairing attempts from this device are paused for 1 minute after repeated denials"

/-- `LinkApprovals`, keyed by the lower-case fingerprint and the link's epoch. -/
def linkApprovals : Rules (String × UInt64) where
  device := Prod.fst
  capacity := 16
  capacity_pos := Nat.succ_pos 15
  timeoutMs := 150 * 1000
  full := "too many pending link approvals"
  awaiting := "link is already awaiting local approval"
  paused := "link attempts from this device are paused for 1 minute after repeated denials"

def pairingKey (fingerprintHex : String) : String := Text.toAsciiLowercase fingerprintHex

/-- The key of a link request. Epoch-less links never queue for approval. -/
def linkKey (fingerprintHex : String) (linkId : Option UInt64) : Except String (String × UInt64) :=
  match linkId with
  | some epoch => .ok (Text.toAsciiLowercase fingerprintHex, epoch)
  | none => .error "epoch-less links never queue for approval"

def maxPairingRejects : ℕ := 5
def rejectWindowMs : ℕ := 10 * 60 * 1000
def rejectFreezeMs : ℕ := 60 * 1000

structure RejectRecord where
  count : ℕ
  windowStarted : Instant
  frozenUntil : Option Instant
  deriving DecidableEq

/-- `frozen_until` lies ahead. -/
def RejectRecord.frozen (record : RejectRecord) (now : Instant) : Bool :=
  record.frozenUntil.any fun until_ => now < until_

/-- A one-shot channel of a decision. -/
inductive Channel
  | empty
  | sent (approved : Bool)
  | closed
  deriving DecidableEq

/-- The side that waits: before `wait` is called, in it, with a decision but before the entry
is removed, returned, or abandoned. -/
inductive Waiter
  | held
  | waiting (since : Instant)
  | resolved (decision : Bool)
  | finished (decision : Bool)
  | dropped
  deriving DecidableEq

structure Registration (κ : Type) where
  key : κ
  channel : Channel
  waiter : Waiter
  deriving DecidableEq

/-- The receiver is there to take a decision. -/
def Registration.listens {κ : Type} (r : Registration κ) : Bool :=
  match r.waiter with
  | .held => true
  | .waiting _ => true
  | _ => false

/-- A decision that reached its registration. -/
structure Decision (κ : Type) where
  time : Instant
  ticket : ℕ
  key : κ
  approved : Bool
  deriving DecidableEq

/-- The entries with the tickets of their registrations, the denials, all registrations by
ticket, the clock, and the decisions applied so far. -/
structure Queue (κ : Type) where
  pending : List (κ × ℕ)
  rejects : String → Option RejectRecord
  registrations : List (Registration κ)
  now : Instant
  decided : List (Decision κ)

inductive Answer
  | none
  | registered (ticket : ℕ)
  | refused (reason : String)
  | decided (applied : Bool)
  | waited (approved : Bool)
  deriving DecidableEq

inductive Op (κ : Type)
  | pass (ms : ℕ)
  | register (key : κ)
  | decide (key : κ) (approved : Bool)
  | cancel (ticket : ℕ)
  | wait (ticket : ℕ)
  | resolve (ticket : ℕ)
  | finish (ticket : ℕ)
  | drop (ticket : ℕ)
  deriving DecidableEq

section

variable {κ : Type} [DecidableEq κ] (rules : Rules κ)

namespace Queue

def empty : Queue κ := ⟨[], fun _ => none, [], 0, []⟩

/-- The ticket listed under a key. -/
def listed (q : Queue κ) (key : κ) : Option ℕ := (q.pending.find? (·.1 = key)).map (·.2)

def modify (q : Queue κ) (ticket : ℕ) (f : Registration κ → Registration κ) : Queue κ :=
  { q with registrations := q.registrations.modify ticket f }

/-- `pending.remove`, which drops the sender of the entry it takes out. -/
def remove (q : Queue κ) (key : κ) : Queue κ :=
  match q.listed key with
  | none => q
  | some ticket =>
    { q.modify ticket fun r => { r with channel := .closed } with
      pending := q.pending.filter (·.1 ≠ key) }

def frozen (q : Queue κ) (device : String) : Bool :=
  (q.rejects device).any (·.frozen q.now)

/-- The janitor: cooled-off records go. -/
def janitor (q : Queue κ) : String → Option RejectRecord := fun device =>
  (q.rejects device).filter fun record =>
    record.frozen q.now || q.now - record.windowStarted < rejectWindowMs

/-- `register`, behind the test hook that lists nothing. -/
def register (q : Queue κ) (key : κ) : Queue κ × Answer :=
  if rules.capacity ≤ q.pending.length then (q, .refused rules.full)
  else if (q.listed key).isSome then (q, .refused rules.awaiting)
  else if q.frozen (rules.device key) then (q, .refused rules.paused)
  else
    ({ q with
      rejects := q.janitor
      pending := q.pending ++ [(key, q.registrations.length)]
      registrations := q.registrations ++ [⟨key, .empty, .held⟩] },
    .registered q.registrations.length)

/-- The record behind one more denial. -/
def denied (record : Option RejectRecord) (now : Instant) : RejectRecord :=
  let record := record.getD ⟨0, now, none⟩
  let record := if rejectWindowMs ≤ now - record.windowStarted then ⟨0, now, none⟩ else record
  let count := record.count + 1
  { record with
    count
    frozenUntil :=
      if maxPairingRejects ≤ count then some (now + rejectFreezeMs) else record.frozenUntil }

/-- Denial accounting: approvals clear the count, denials grow it. -/
def account (q : Queue κ) (device : String) (approved : Bool) : String → Option RejectRecord :=
  Function.update q.rejects device
    (if approved then none else some (denied (q.rejects device) q.now))

/-- `decide`. -/
def decide (q : Queue κ) (key : κ) (approved : Bool) : Queue κ × Answer :=
  match q.listed key with
  | none => (q, .decided false)
  | some ticket =>
    if (q.registrations[ticket]?).any Registration.listens then
      ({ q.modify ticket fun r => { r with channel := .sent approved } with
        pending := q.pending.filter (·.1 ≠ key)
        rejects := q.account (rules.device key) approved
        decided := q.decided ++ [⟨q.now, ticket, key, approved⟩] }, .decided true)
    else (q.remove key, .decided false)

/-- The receiver comes to something, or the timeout fires: the channel is looked at first. -/
def resolve (q : Queue κ) (r : Registration κ) : Waiter :=
  match r.waiter with
  | .waiting since =>
    match r.channel with
    | .sent approved => .resolved approved
    | .closed => .resolved false
    | .empty => if since + rules.timeoutMs ≤ q.now then .resolved false else .waiting since
  | waiter => waiter

/-- Abandons the waiter, or the future of its `wait`. -/
def abandon (r : Registration κ) : Registration κ :=
  match r.waiter with
  | .finished _ => r
  | _ => { r with waiter := .dropped }

def step (q : Queue κ) : Op κ → Queue κ × Answer
  | .pass ms => ({ q with now := q.now + ms }, .none)
  | .register key => q.register rules key
  | .decide key approved => q.decide rules key approved
  | .cancel ticket =>
    match q.registrations[ticket]? with
    | none => (q, .none)
    | some r => (q.remove r.key, .none)
  | .wait ticket =>
    (q.modify ticket fun r =>
      if r.waiter = .held then { r with waiter := .waiting q.now } else r, .none)
  | .resolve ticket => (q.modify ticket fun r => { r with waiter := q.resolve rules r }, .none)
  | .finish ticket =>
    match q.registrations[ticket]? with
    | some ⟨key, _, .resolved decision⟩ =>
      ((q.remove key).modify ticket fun r => { r with waiter := .finished decision },
        .waited decision)
    | _ => (q, .none)
  | .drop ticket => (q.modify ticket abandon, .none)

end Queue

/-- The queue behind the steps of a run. -/
abbrev after (ops : List (Op κ)) : Queue κ := Trace.final (Queue.step rules) Queue.empty ops

end

end TheKvm.Approvals

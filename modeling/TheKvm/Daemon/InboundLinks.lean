import Mathlib.Data.List.Sort
import TheKvm.Core.Router
import TheKvm.Daemon.EndedLinks
import TheKvm.Protocol.Wire

/-!
The inbound links of a daemon, live and remembered, and what its status tells of them.

Both are hash maps; the order one is iterated in is its own business, so a status is of an order.
-/

namespace TheKvm

/-- A live link, or the memory of one, as a status shows it. -/
structure LinkView where
  fingerprintHex : String
  nodeName : String
  address : String
  linkId : Option UInt64
  deriving DecidableEq

structure RecentInbound where
  link : LinkView
  lastSeenSecsAgo : ℕ
  deriving DecidableEq

/-- What `DaemonStatus` tells of the links. -/
structure LinkStatus where
  mode : Mode
  sessions : List LinkView
  recentInbound : List RecentInbound

structure LiveLink where
  id : ℕ
  link : LinkView
  deriving DecidableEq

structure RecentInboundRecord where
  link : LinkView
  lastSeen : Instant
  deriving DecidableEq

/-- The registry of live links and the memory of past ones, each with one entry a peer. -/
structure InboundLinks where
  nextId : ℕ
  live : List LiveLink
  seen : List RecentInboundRecord

def recentInboundMaxSecs : ℕ := 15 * 60

def maxRecentInbound : ℕ := 64

/-- `as_secs` of what has elapsed. -/
def elapsedSecs (now since : Instant) : ℕ := (now - since) / 1000

namespace InboundLinks

def empty : InboundLinks := ⟨0, [], []⟩

def noteInboundSeen (l : InboundLinks) (now : Instant) (link : LinkView) : InboundLinks :=
  let seen := l.seen.filter fun record => elapsedSecs now record.lastSeen ≤ recentInboundMaxSecs
  if maxRecentInbound ≤ seen.length then { l with seen }
  else { l with seen := seen.filter (·.link.fingerprintHex ≠ link.fingerprintHex) ++ [⟨link, now⟩] }

def registerInboundLink (l : InboundLinks) (now : Instant) (link : LinkView) : InboundLinks :=
  let l := l.noteInboundSeen now link
  { l with
    nextId := l.nextId + 1
    live := l.live.filter (·.link.fingerprintHex ≠ link.fingerprintHex) ++ [⟨l.nextId, link⟩] }

/-- Only while the id still matches. -/
def removeInboundLink (l : InboundLinks) (fingerprintHex : String) (id : ℕ) : InboundLinks :=
  { l with live := l.live.filter fun entry =>
      ¬(entry.link.fingerprintHex = fingerprintHex ∧ entry.id = id) }

/-- `recent_inbound_view` of records in the order they are iterated in. -/
def recentInboundView (now : Instant) (banned : Option UInt64 → Bool)
    (records : List RecentInboundRecord) : List RecentInbound :=
  ((records.filter fun record => ¬banned record.link.linkId ∧
    elapsedSecs now record.lastSeen ≤ recentInboundMaxSecs).map fun record =>
      ⟨record.link, elapsedSecs now record.lastSeen⟩).insertionSort
        fun a b => a.lastSeenSecsAgo ≤ b.lastSeenSecsAgo

/-- The status of a daemon whose maps are iterated in these orders. -/
def status (now : Instant) (mode : Mode) (ended : EndedLinks) (live : List LiveLink)
    (seen : List RecentInboundRecord) : LinkStatus where
  mode := mode
  sessions := live.map (·.link)
  recentInbound := recentInboundView now (·.any ended.linkEnded) seen

/-- The lists are orders in which the two maps may be iterated. -/
def Iterates (l : InboundLinks) (live : List LiveLink) (seen : List RecentInboundRecord) : Prop :=
  live.Perm l.live ∧ seen.Perm l.seen

instance (l : InboundLinks) (live : List LiveLink) (seen : List RecentInboundRecord) :
    Decidable (l.Iterates live seen) :=
  inferInstanceAs (Decidable (_ ∧ _))

/-! ### What every link meets -/

/-- Every link, live or remembered, meets `P`. -/
def All (P : LinkView → Prop) (l : InboundLinks) : Prop :=
  (∀ entry ∈ l.live, P entry.link) ∧ ∀ record ∈ l.seen, P record.link

variable {P : LinkView → Prop} {l : InboundLinks} {now : Instant} {link : LinkView}

lemma all_empty : All P empty := ⟨by simp [empty], by simp [empty]⟩

lemma All.noteInboundSeen (h : All P l) (hlink : P link) :
    All P (l.noteInboundSeen now link) := by
  unfold InboundLinks.noteInboundSeen
  dsimp only
  split_ifs
  · exact ⟨h.1, fun record hrecord => h.2 record (List.mem_of_mem_filter hrecord)⟩
  · refine ⟨h.1, fun record hrecord => ?_⟩
    rcases List.mem_append.mp hrecord with hold | hnew
    · exact h.2 record (List.mem_of_mem_filter (List.mem_of_mem_filter hold))
    · obtain rfl := List.mem_singleton.mp hnew
      exact hlink

lemma All.registerInboundLink (h : All P l) (hlink : P link) :
    All P (l.registerInboundLink now link) := by
  have hnoted : All P (l.noteInboundSeen now link) := h.noteInboundSeen hlink
  refine ⟨fun entry hentry => ?_, hnoted.2⟩
  rcases List.mem_append.mp hentry with hold | hnew
  · exact hnoted.1 entry (List.mem_of_mem_filter hold)
  · obtain rfl := List.mem_singleton.mp hnew
    exact hlink

lemma All.removeInboundLink (h : All P l) (fingerprintHex : String) (id : ℕ) :
    All P (l.removeInboundLink fingerprintHex id) :=
  ⟨fun entry hentry => h.1 entry (List.mem_of_mem_filter hentry), h.2⟩

lemma mem_recentInboundView {banned : Option UInt64 → Bool} {records : List RecentInboundRecord}
    {recent : RecentInbound} (h : recent ∈ recentInboundView now banned records) :
    ∃ record ∈ records, recent.link = record.link ∧ banned recent.link.linkId = false := by
  rw [recentInboundView, List.mem_insertionSort] at h
  obtain ⟨record, hrecord, rfl⟩ := List.mem_map.mp h
  obtain ⟨hmem, hkept⟩ := List.mem_filter.mp hrecord
  have hopen := (of_decide_eq_true hkept).1
  exact ⟨record, hmem, rfl, by simpa using hopen⟩

/-- A status tells of no other links. -/
lemma All.status (h : All P l) {live : List LiveLink} {seen : List RecentInboundRecord}
    (hiter : l.Iterates live seen) (mode : Mode) (ended : EndedLinks) :
    (∀ link ∈ (status now mode ended live seen).sessions, P link) ∧
      ∀ recent ∈ (status now mode ended live seen).recentInbound, P recent.link := by
  constructor
  · intro link hlink
    obtain ⟨entry, hentry, rfl⟩ := List.mem_map.mp hlink
    exact h.1 entry (hiter.1.subset hentry)
  · intro recent hrecent
    obtain ⟨record, hrecord, heq, -⟩ := mem_recentInboundView hrecent
    rw [heq]
    exact h.2 record (hiter.2.subset hrecord)

end InboundLinks

end TheKvm

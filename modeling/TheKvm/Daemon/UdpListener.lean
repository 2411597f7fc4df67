import Mathlib.Data.List.AList
import TheKvm.Daemon.UdpKeys

/-!
The UDP motion listener, its replay state, and the drivers whose packets reach it.

A driver numbers its packets from zero in every process, and the key of its link outlives the
process. The listener compares numbers under a key, whoever drew them.
-/

namespace TheKvm

structure UdpMotionFrame where
  sequence : UInt64
  dx : Int32
  dy : Int32
  deriving DecidableEq

variable {Key : Type} [DecidableEq Key]

/-- `last_seq`: the last number forwarded under each key. -/
abbrev LastSeq (Key : Type) := AList fun _ : Key => UInt64

/-- Strictly newer, or a counter wrap. -/
def acceptSequence (last : Option UInt64) (seq : UInt64) : Bool :=
  match last with
  | none => true
  | some last => last < seq || ((-1 : UInt64) - 4096 < last && seq < 4096)

/-- Remember a forwarded number. Of more than 128 keys one is dropped, whichever the map
iterates over first. -/
def recordSequence (lastSeq : LastSeq Key) (key : Key) (seq : UInt64) (first : ℕ) : LastSeq Key :=
  let lastSeq := lastSeq.insert key seq
  if 128 < lastSeq.keys.length then
    match lastSeq.keys[first % lastSeq.keys.length]? with
    | some old => lastSeq.erase old
    | none => lastSeq
  else lastSeq

/-- One datagram: what is forwarded, under which key and to whose sink. -/
def listenDatagram (aead : Aead Key) (keys : List (Key × String × Bool)) (lastSeq : LastSeq Key)
    (datagram : List UInt8) (first : ℕ) :
    LastSeq Key × Option (Key × String × UdpMotionFrame) :=
  if keys = [] then (lastSeq, none)
  else match decodeMotionPacket aead (keys.map Prod.fst) datagram with
  | .error _ => (lastSeq, none)
  | .ok (index, seq, dx, dy) =>
    match keys[index]? with
    | none => (lastSeq, none)
    | some (key, fingerprintHex, _) =>
      if acceptSequence (lastSeq.lookup key) seq then
        (recordSequence lastSeq key seq first, some (key, fingerprintHex, ⟨seq, dx, dy⟩))
      else (lastSeq, none)

/-! ### Drivers and their packets -/

/-- A packet as it was sent. -/
structure MotionPacket (Key : Type) where
  key : Key
  /-- Which of the processes that drove the link sent it. -/
  process : ℕ
  /-- How often its process had stepped its counter. -/
  count : ℕ
  dx : Int32
  dy : Int32
  nonce : Nonce

namespace MotionPacket

/-- `sequence.wrapping_add(1)`, so often. -/
def sequence (p : MotionPacket Key) : UInt64 := .ofNat p.count

def datagram (aead : Aead Key) (p : MotionPacket Key) : IoResult (List UInt8) :=
  encodeMotionPacket aead p.nonce.val p.key p.sequence p.dx p.dy

end MotionPacket

inductive UdpEvent (Key : Type)
  /-- a key is registered -/
  | register (key : Key) (peerHex : String) (lockScreenEnabled : Bool) (now : ℕ)
  /-- the driver of a link sends a motion, after so much other input -/
  | send (key : Key) (skipped : ℕ) (dx dy : Int32) (nonce : Nonce)
  /-- the driver's process starts anew on the same link -/
  | restart (key : Key)
  /-- a packet that was sent reaches the listener, perhaps not for the first time -/
  | deliver (index first : ℕ)

structure UdpMotion (Key : Type) where
  ring : List (UdpMotionKey Key)
  lastSeq : LastSeq Key
  process : Key → ℕ
  count : Key → ℕ
  sent : List (MotionPacket Key)
  received : List (MotionPacket Key)
  /-- Of the packets that were forwarded, the key they were forwarded under and their count. -/
  forwarded : List (Key × ℕ)

namespace UdpMotion

def init : UdpMotion Key := ⟨[], ∅, fun _ => 0, fun _ => 0, [], [], []⟩

/-- What the listener does with a packet. -/
def listen (aead : Aead Key) (s : UdpMotion Key) (p : MotionPacket Key) (first : ℕ) :
    LastSeq Key × Option (Key × String × UdpMotionFrame) :=
  match p.datagram aead with
  | .error _ => (s.lastSeq, none)
  | .ok datagram => listenDatagram aead (udpMotionKeySnapshot s.ring) s.lastSeq datagram first

def step (aead : Aead Key) (s : UdpMotion Key) : UdpEvent Key → UdpMotion Key × Unit
  | .register key peerHex lockScreenEnabled now =>
    ({ s with ring := pushUdpMotionKey s.ring key peerHex lockScreenEnabled now }, ())
  | .send key skipped dx dy nonce =>
    let count := s.count key + skipped + 1
    ({ s with
        count := Function.update s.count key count
        sent := s.sent ++ [⟨key, s.process key, count, dx, dy, nonce⟩] }, ())
  | .restart key =>
    ({ s with
        process := Function.update s.process key (s.process key + 1)
        count := Function.update s.count key 0 }, ())
  | .deliver index first =>
    match s.sent[index]? with
    | none => (s, ())
    | some p =>
      let (lastSeq, forwarded) := s.listen aead p first
      ({ s with
          lastSeq
          received := s.received ++ [p]
          forwarded := s.forwarded ++ (forwarded.map fun out => (out.1, p.count)).toList }, ())

/-- After some events. -/
def after (aead : Aead Key) (events : List (UdpEvent Key)) : UdpMotion Key :=
  Trace.final (step aead) init events

/-- A key of the ring. -/
def Registered (s : UdpMotion Key) (key : Key) : Prop := key ∈ s.ring.map UdpMotionKey.key

/-- A packet of the process that drives now, newer than all that were received of it. -/
def Newest (s : UdpMotion Key) (p : MotionPacket Key) : Prop :=
  p.process = s.process p.key ∧
    ∀ q ∈ s.received, q.key = p.key → q.process = p.process → q.count < p.count

/-- The count of the packet that was forwarded last under a key. -/
def lastCount (forwarded : List (Key × ℕ)) (key : Key) : Option ℕ :=
  ((forwarded.filter (·.1 = key)).map Prod.snd).getLast?

/-- A packet is forwarded as it was sent, behind all that were forwarded under its key; and the
newest of the process that drives now is forwarded if its key is registered. -/
def Fresh (aead : Aead Key) (s : UdpMotion Key) : UdpEvent Key → Prop
  | .deliver index first =>
    ∀ p, s.sent[index]? = some p →
      (∀ key fingerprintHex frame, (s.listen aead p first).2 = some (key, fingerprintHex, frame) →
        key = p.key ∧ frame = ⟨p.sequence, p.dx, p.dy⟩ ∧
          ∀ count, (key, count) ∈ s.forwarded → count < p.count) ∧
      (s.Registered p.key → s.Newest p → ((s.listen aead p first).2).isSome = true)
  | _ => True

/-- Two counts whose numbers are compared as they should be: on one lap of the counter, but not
across the window of a wrap, or on two laps and across it. -/
def Comparable (last count : ℕ) : Prop :=
  last / 2 ^ 64 = count / 2 ^ 64 ∧ ¬(2 ^ 64 - 1 - 4096 < last % 2 ^ 64 ∧ count % 2 ^ 64 < 4096) ∨
    last / 2 ^ 64 + 1 = count / 2 ^ 64 ∧ 2 ^ 64 - 1 - 4096 < last % 2 ^ 64 ∧ count % 2 ^ 64 < 4096

/-- A packet under a registered key is ahead of all that were forwarded under it if the listener
has forgotten the key, or if the packet is the newest of its process; and its count is comparable
to the one forwarded last, if the listener knows the key. -/
def Kept (s : UdpMotion Key) : UdpEvent Key → Prop
  | .deliver index _ =>
    ∀ p, s.sent[index]? = some p → s.Registered p.key →
      (s.lastSeq.lookup p.key = none ∨ s.Newest p →
        ∀ count, (p.key, count) ∈ s.forwarded → count < p.count) ∧
      ∀ last, (s.lastSeq.lookup p.key).isSome = true → lastCount s.forwarded p.key = some last →
        Comparable last p.count
  | _ => True

end UdpMotion

/-! ### Comparing numbers -/

/-- The numbers of comparable counts are compared like the counts. -/
lemma acceptSequence_iff {last count : ℕ} (h : UdpMotion.Comparable last count) :
    acceptSequence (some (.ofNat last)) (.ofNat count) = true ↔ last < count := by
  rw [acceptSequence]
  simp only [Bool.or_eq_true, Bool.and_eq_true, decide_eq_true_eq, UInt64.lt_iff_toNat_lt,
    UInt64.toNat_ofNat']
  have hwindow : ((-1 : UInt64) - 4096).toNat = 2 ^ 64 - 1 - 4096 := by decide
  have hstart : (4096 : UInt64).toNat = 4096 := rfl
  rw [hwindow, hstart]
  have hlast := Nat.div_add_mod last (2 ^ 64)
  have hcount := Nat.div_add_mod count (2 ^ 64)
  have hlt := Nat.mod_lt last (show 2 ^ 64 > 0 by decide)
  rcases h with ⟨hlap, hwrap⟩ | ⟨hlap, hwrap⟩
  · rw [or_iff_left hwrap]
    omega
  · refine iff_of_true (Or.inr hwrap) ?_
    omega

namespace UdpMotion

variable {aead : Aead Key} {s : UdpMotion Key} {p : MotionPacket Key} {first : ℕ}

/-! ### What the listener does -/

omit [DecidableEq Key] in
lemma keys_udpMotionKeySnapshot (ring : List (UdpMotionKey Key)) :
    (udpMotionKeySnapshot ring).map Prod.fst = ring.map UdpMotionKey.key := by
  rw [udpMotionKeySnapshot, List.map_map]
  rfl

/-- A packet under a registered key is forwarded if its number is accepted. -/
lemma listen_registered (hlawful : aead.Lawful) (hbound : aead.KeyBound)
    (h : s.Registered p.key) (first : ℕ) :
    ∃ fingerprintHex, s.listen aead p first =
      if acceptSequence (s.lastSeq.lookup p.key) p.sequence = true then
        (recordSequence s.lastSeq p.key p.sequence first,
          some (p.key, fingerprintHex, ⟨p.sequence, p.dx, p.dy⟩))
      else (s.lastSeq, none) := by
  obtain ⟨datagram, hdatagram⟩ : ∃ datagram, p.datagram aead = .ok datagram := ⟨_, rfl⟩
  have hmem : p.key ∈ (udpMotionKeySnapshot s.ring).map Prod.fst := by
    rw [keys_udpMotionKeySnapshot]
    exact h
  have hdecode := decodeMotionPacket_encode hlawful
    (fun k _ hne plaintext => hbound p.key k _ plaintext hne) p.nonce.property hmem hdatagram
  have hlt := List.idxOf_lt_length_of_mem hmem
  have hget := List.getElem_idxOf hlt
  rw [List.getElem_map] at hget
  rw [List.length_map] at hlt
  rcases hentry : (udpMotionKeySnapshot s.ring)[List.idxOf p.key
    ((udpMotionKeySnapshot s.ring).map Prod.fst)] with ⟨key, fingerprintHex, lockScreenEnabled⟩
  rw [hentry] at hget
  obtain rfl : key = p.key := hget
  refine ⟨fingerprintHex, ?_⟩
  have hne : udpMotionKeySnapshot s.ring ≠ [] := List.ne_nil_of_length_pos (by omega)
  rw [listen, hdatagram]
  simp only [listenDatagram]
  rw [if_neg hne, hdecode]
  simp only [List.getElem?_eq_getElem hlt, hentry]

/-- A packet under a key that is not registered is dropped. -/
lemma listen_foreign (hlawful : aead.Lawful) (hbound : aead.KeyBound)
    (h : ¬s.Registered p.key) : s.listen aead p first = (s.lastSeq, none) := by
  obtain ⟨datagram, hdatagram⟩ : ∃ datagram, p.datagram aead = .ok datagram := ⟨_, rfl⟩
  have hmem : p.key ∉ (udpMotionKeySnapshot s.ring).map Prod.fst := by
    rw [keys_udpMotionKeySnapshot]
    exact h
  rw [listen, hdatagram]
  simp only [listenDatagram]
  rw [decodeMotionPacket_foreign hlawful hbound p.nonce.property hmem hdatagram]
  exact ite_self _

/-! ### What is forwarded -/

lemma lookup_recordSequence {lastSeq : LastSeq Key} {key k : Key} {seq r : UInt64}
    (h : (recordSequence lastSeq key seq first).lookup k = some r) :
    k = key ∧ r = seq ∨ k ≠ key ∧ lastSeq.lookup k = some r := by
  have hinsert : (lastSeq.insert key seq).lookup k = some r := by
    rw [recordSequence] at h
    split_ifs at h
    · rcases hold : (lastSeq.insert key seq).keys[first % (lastSeq.insert key seq).keys.length]?
        with _ | old
      · rw [hold] at h
        exact h
      · rw [hold] at h
        simp only at h
        by_cases hk : k = old
        · subst hk
          rw [AList.lookup_erase] at h
          cases h
        · rwa [AList.lookup_erase_ne hk] at h
    · exact h
  by_cases hk : k = key
  · subst hk
    rw [AList.lookup_insert] at hinsert
    exact Or.inl ⟨rfl, (Option.some.inj hinsert).symm⟩
  · rw [AList.lookup_insert_ne hk] at hinsert
    exact Or.inr ⟨hk, hinsert⟩

/-- Nothing was forwarded under a key after what was forwarded last, and what the listener
remembers of the key is the number of that. -/
structure Numbered (lastSeq : LastSeq Key) (forwarded : List (Key × ℕ)) : Prop where
  latest : ∀ key last, lastCount forwarded key = some last →
    ∀ count, (key, count) ∈ forwarded → count ≤ last
  remembered : ∀ key seq, lastSeq.lookup key = some seq →
    ∃ last, lastCount forwarded key = some last ∧ seq = .ofNat last

lemma lastCount_append (forwarded : List (Key × ℕ)) (key k : Key) (count : ℕ) :
    lastCount (forwarded ++ [(key, count)]) k =
      if key = k then some count else lastCount forwarded k := by
  rw [lastCount, List.filter_append]
  split_ifs with h
  · rw [List.filter_cons_of_pos (by simpa using h), List.filter_nil, List.map_append,
      List.map_singleton, List.getLast?_append, List.getLast?_singleton, Option.some_or]
  · rw [List.filter_cons_of_neg (by simpa using h), List.filter_nil, List.append_nil]
    rfl

lemma mem_of_lastCount {forwarded : List (Key × ℕ)} {key : Key} {last : ℕ}
    (h : lastCount forwarded key = some last) : (key, last) ∈ forwarded := by
  obtain ⟨⟨k, count⟩, hmem, rfl⟩ := List.mem_map.mp (List.mem_of_getLast? h)
  obtain ⟨hforwarded, hk⟩ := List.mem_filter.mp hmem
  obtain rfl : k = key := by simpa using hk
  exact hforwarded

/-- What is forwarded ahead of all before it is counted, and its number is remembered. -/
lemma Numbered.forward {lastSeq : LastSeq Key} {forwarded : List (Key × ℕ)} {key : Key} {count : ℕ}
    (h : Numbered lastSeq forwarded) (hahead : ∀ c, (key, c) ∈ forwarded → c < count) :
    Numbered (recordSequence lastSeq key (.ofNat count) first) (forwarded ++ [(key, count)]) := by
  refine ⟨?_, ?_⟩
  · intro k last hlast c hc
    rw [lastCount_append] at hlast
    rcases List.mem_append.mp hc with hold | hnew
    · split_ifs at hlast with hk
      · subst hk
        obtain rfl := Option.some.inj hlast
        exact (hahead c hold).le
      · exact h.latest k last hlast c hold
    · obtain ⟨rfl, rfl⟩ := Prod.mk.inj (List.mem_singleton.mp hnew)
      rw [if_pos rfl] at hlast
      exact (Option.some.inj hlast).le
  · intro k seq hlookup
    rw [lastCount_append]
    rcases lookup_recordSequence hlookup with ⟨rfl, rfl⟩ | ⟨hk, hlookup⟩
    · exact ⟨count, if_pos rfl, rfl⟩
    · rw [if_neg fun heq => hk heq.symm]
      exact h.remembered k seq hlookup

/-- What is accepted is ahead of all that was forwarded under its key. -/
lemma Kept.accept {index : ℕ} (hkept : s.Kept (.deliver index first))
    (hnumbered : Numbered s.lastSeq s.forwarded) (hget : s.sent[index]? = some p)
    (h : s.Registered p.key)
    (haccept : acceptSequence (s.lastSeq.lookup p.key) p.sequence = true) :
    ∀ count, (p.key, count) ∈ s.forwarded → count < p.count := by
  obtain ⟨hahead, hcomparable⟩ := hkept p hget h
  rcases hlookup : s.lastSeq.lookup p.key with _ | seq
  · exact hahead (Or.inl hlookup)
  obtain ⟨last, hlast, rfl⟩ := hnumbered.remembered p.key seq hlookup
  rw [hlookup, MotionPacket.sequence,
    acceptSequence_iff (hcomparable last (by rw [hlookup]; rfl) hlast)] at haccept
  intro count hcount
  calc count ≤ last := hnumbered.latest p.key last hlast count hcount
    _ < p.count := haccept

/-- The newest packet of its process is accepted. -/
lemma Kept.newest {index : ℕ} (hkept : s.Kept (.deliver index first))
    (hnumbered : Numbered s.lastSeq s.forwarded) (hget : s.sent[index]? = some p)
    (h : s.Registered p.key) (hnewest : s.Newest p) :
    acceptSequence (s.lastSeq.lookup p.key) p.sequence = true := by
  obtain ⟨hahead, hcomparable⟩ := hkept p hget h
  rcases hlookup : s.lastSeq.lookup p.key with _ | seq
  · rfl
  obtain ⟨last, hlast, rfl⟩ := hnumbered.remembered p.key seq hlookup
  rw [MotionPacket.sequence, acceptSequence_iff (hcomparable last (by rw [hlookup]; rfl) hlast)]
  exact hahead (Or.inr hnewest) last (mem_of_lastCount hlast)

lemma Kept.fresh (hlawful : aead.Lawful) (hbound : aead.KeyBound) {event : UdpEvent Key}
    (hkept : s.Kept event) (hnumbered : Numbered s.lastSeq s.forwarded) : s.Fresh aead event := by
  cases event with
  | deliver index first =>
    intro p hget
    by_cases h : s.Registered p.key
    · obtain ⟨fingerprintHex, hlisten⟩ := listen_registered hlawful hbound h first
      rw [hlisten]
      refine ⟨?_, ?_⟩
      · intro key hex frame hsome
        by_cases haccept : acceptSequence (s.lastSeq.lookup p.key) p.sequence = true
        · rw [if_pos haccept] at hsome
          cases hsome
          exact ⟨rfl, rfl, hkept.accept hnumbered hget h haccept⟩
        · rw [if_neg haccept] at hsome
          cases hsome
      · intro _ hnewest
        rw [if_pos (hkept.newest hnumbered hget h hnewest)]
        rfl
    · rw [listen_foreign hlawful hbound h]
      refine ⟨?_, fun hregistered => absurd hregistered h⟩
      intro _ _ _ hsome
      cases hsome
  | _ => trivial

lemma Numbered.step (hlawful : aead.Lawful) (hbound : aead.KeyBound) {event : UdpEvent Key}
    (hnumbered : Numbered s.lastSeq s.forwarded) (hkept : s.Kept event) :
    Numbered (step aead s event).1.lastSeq (step aead s event).1.forwarded := by
  cases event with
  | deliver index first =>
    rw [UdpMotion.step]
    rcases hget : s.sent[index]? with _ | p
    · exact hnumbered
    by_cases h : s.Registered p.key
    · obtain ⟨fingerprintHex, hlisten⟩ := listen_registered hlawful hbound h first
      by_cases haccept : acceptSequence (s.lastSeq.lookup p.key) p.sequence = true
      · rw [if_pos haccept] at hlisten
        simp only [hlisten]
        exact hnumbered.forward (hkept.accept hnumbered hget h haccept)
      · rw [if_neg haccept] at hlisten
        simp only [hlisten]
        simpa using hnumbered
    · simp only [listen_foreign hlawful hbound h]
      simpa using hnumbered
  | _ => exact hnumbered

/-- **What the listener forwards is fresh while its numbers are.** In a run in which every packet
under a registered key is ahead of all that were forwarded under it, whenever the listener has
forgotten the key or the packet is the newest of a restarted driver, and in which the counts it
compares are comparable, nothing is forwarded twice or out of order, and the newest packet of the
process that drives now always is forwarded. -/
theorem alwaysFresh_of_kept (hlawful : aead.Lawful) (hbound : aead.KeyBound)
    (events : List (UdpEvent Key))
    (h : Trace.Each (fun past event => (after aead past).Kept event) events) :
    Trace.Each (fun past event => (after aead past).Fresh aead event) events := by
  intro past event hevent
  have hnumbered : Numbered (after aead past).lastSeq (after aead past).forwarded := by
    refine Trace.invariant (I := fun _ (s : UdpMotion Key) => Numbered s.lastSeq s.forwarded)
      ?_ ?_ (h.earlier hevent)
    · refine ⟨?_, ?_⟩
      · intro _ _ hlast
        cases hlast
      · intro _ _ hlookup
        cases hlookup
    · intro _ _ hnumbered hkept
      exact hnumbered.step hlawful hbound hkept
  exact (h past event hevent).fresh hlawful hbound hnumbered

/-- A drive's first packet. -/
def firstMotion : List (UdpEvent UInt8) :=
  [.register 1 "a" true 0, .send 1 4 3 0 (.fill 0), .deliver 0 0]

theorem alwaysFresh_firstMotion :
    Trace.Each (fun past event => (after Aead.clear past).Fresh Aead.clear event) firstMotion ∧
      (after Aead.clear firstMotion).forwarded = [(1, 5)] := by
  refine ⟨alwaysFresh_of_kept Aead.clear_lawful Aead.clear_keyBound _ ?_, by decide⟩
  refine Trace.each_snoc (l := [_, _]).mpr ⟨Trace.each_snoc (l := [_]).mpr
    ⟨Trace.each_singleton.mpr trivial, trivial⟩, ?_⟩
  intro p _ _
  refine ⟨?_, ?_⟩
  · intro _ count hcount
    exact absurd hcount List.not_mem_nil
  · intro last hlookup _
    cases hlookup

/-- The driver's process starts anew on its link. -/
def secondProcess : List (UdpEvent UInt8) :=
  firstMotion ++ [.restart 1, .send 1 0 3 0 (.fill 1)]

/-- The first packet of the second process is dropped. -/
theorem restarted_driver_unheard :
    ¬∀ (Key : Type) [DecidableEq Key] (aead : Aead Key), aead.Lawful → aead.KeyBound →
      ∀ events : List (UdpEvent Key),
        Trace.Each (fun past event => (after aead past).Fresh aead event) events := by
  intro h
  have hfresh := h UInt8 Aead.clear Aead.clear_lawful Aead.clear_keyBound
    (secondProcess ++ [.deliver 1 0]) secondProcess (.deliver 1 0) (by rfl)
  have hsome := (hfresh ⟨1, 1, 1, 3, 0, .fill 1⟩ rfl).2
    (List.mem_singleton.mpr rfl) ⟨rfl, ?_⟩
  · exact absurd hsome (by decide)
  · intro q hq _ hprocess
    obtain rfl := List.mem_singleton.mp hq
    exact absurd hprocess (by decide)

end UdpMotion

end TheKvm

import Mathlib.Data.List.Nodup
import TheKvm.Lib.Trace
import TheKvm.Protocol.Udp

/-!
The ring of keys the UDP listener decrypts with.

A registration forgets keys by their age, by identity and by number. The age of a key counts
from its registration, not from its last packet.
-/

namespace TheKvm

structure UdpMotionKey (Key : Type) where
  key : Key
  fingerprintHex : String
  lockScreenEnabled : Bool
  /-- When the key was registered, in nanoseconds of the monotonic clock. -/
  lastSeen : ℕ

variable {Key : Type} [DecidableEq Key]

/-- `last_seen.elapsed().as_secs()`. -/
def UdpMotionKey.elapsedSecs (entry : UdpMotionKey Key) (now : ℕ) : ℕ :=
  (now - entry.lastSeen) / 1000000000

/-- The entries a registration of `key` retains. -/
def retainUdpMotionKeys (ring : List (UdpMotionKey Key)) (key : Key) (now : ℕ) :
    List (UdpMotionKey Key) :=
  ring.filter fun entry => entry.key ≠ key ∧ entry.elapsedSecs now ≤ 15 * 60

/-- `register_udp_motion_key`, of a key that is derived already. -/
def pushUdpMotionKey (ring : List (UdpMotionKey Key)) (key : Key) (peerHex : String)
    (lockScreenEnabled : Bool) (now : ℕ) : List (UdpMotionKey Key) :=
  let kept := retainUdpMotionKeys ring key now
  (if 64 ≤ kept.length then kept.tail else kept) ++ [⟨key, peerHex, lockScreenEnabled, now⟩]

def registerUdpMotionKey (sha256 : List UInt8 → Key) (ring : List (UdpMotionKey Key))
    (localHex peerHex : String) (linkId : UInt64) (lockScreenEnabled : Bool) (now : ℕ) :
    List (UdpMotionKey Key) × Key :=
  let key := deriveUdpKey sha256 localHex peerHex linkId
  (pushUdpMotionKey ring key peerHex lockScreenEnabled now, key)

/-- Key, peer and lock-screen privilege. -/
def udpMotionKeySnapshot (ring : List (UdpMotionKey Key)) : List (Key × String × Bool) :=
  ring.map fun entry => (entry.key, entry.fingerprintHex, entry.lockScreenEnabled)

/-! ### Episodes and their keys -/

inductive UdpKeyEvent
  /-- an episode that negotiated UDP motion starts -/
  | start (peerHex : String) (linkId : UInt64) (lockScreenEnabled : Bool) (now : ℕ)
  /-- an episode ends -/
  | finish (peerHex : String) (linkId : UInt64)

/-- The ring, and the keys of the episodes under way. -/
structure UdpKeys (Key : Type) where
  ring : List (UdpMotionKey Key)
  live : List Key

namespace UdpKeys

def init : UdpKeys Key := ⟨[], []⟩

def step (sha256 : List UInt8 → Key) (localHex : String) (s : UdpKeys Key) :
    UdpKeyEvent → UdpKeys Key × Unit
  | .start peerHex linkId lockScreenEnabled now =>
    let (ring, key) :=
      registerUdpMotionKey sha256 s.ring localHex peerHex linkId lockScreenEnabled now
    (⟨ring, key :: s.live⟩, ())
  | .finish peerHex linkId =>
    (⟨s.ring, s.live.erase (deriveUdpKey sha256 localHex peerHex linkId)⟩, ())

/-- Every episode under way has its key. -/
def Keyed (s : UdpKeys Key) : Prop :=
  ∀ key ∈ s.live, key ∈ (udpMotionKeySnapshot s.ring).map Prod.fst

/-- A registration finds the other keys in use not older than 15 minutes, and the oldest of 64
that are retained is not in use. -/
def Spares (sha256 : List UInt8 → Key) (localHex : String) (s : UdpKeys Key) :
    UdpKeyEvent → Prop
  | .start peerHex linkId _ now =>
    let key := deriveUdpKey sha256 localHex peerHex linkId
    (∀ entry ∈ s.ring, entry.key ∈ s.live → entry.key ≠ key → entry.elapsedSecs now ≤ 15 * 60) ∧
      (64 ≤ (retainUdpMotionKeys s.ring key now).length →
        ∀ entry, (retainUdpMotionKeys s.ring key now).head? = some entry → entry.key ∉ s.live)
  | .finish _ _ => True

/-- After some events. -/
def after (sha256 : List UInt8 → Key) (localHex : String) (events : List UdpKeyEvent) :
    UdpKeys Key :=
  Trace.final (step sha256 localHex) init events

variable {sha256 : List UInt8 → Key} {localHex : String} {s : UdpKeys Key}
  {events : List UdpKeyEvent}

omit [DecidableEq Key] in
lemma keyed_iff : s.Keyed ↔ ∀ key ∈ s.live, ∃ entry ∈ s.ring, entry.key = key := by
  simp [Keyed, udpMotionKeySnapshot]

/-- No key is in the ring twice. -/
def Distinct (s : UdpKeys Key) : Prop := (s.ring.map UdpMotionKey.key).Nodup

/-! ### One event -/

lemma mem_retain {ring : List (UdpMotionKey Key)} {key : Key} {now : ℕ} {entry : UdpMotionKey Key} :
    entry ∈ retainUdpMotionKeys ring key now ↔
      entry ∈ ring ∧ entry.key ≠ key ∧ entry.elapsedSecs now ≤ 15 * 60 := by
  simp [retainUdpMotionKeys]

lemma Distinct.retain (h : s.Distinct) (key : Key) (now : ℕ) :
    ((retainUdpMotionKeys s.ring key now).map UdpMotionKey.key).Nodup :=
  h.sublist (List.filter_sublist.map _)

lemma Distinct.step (h : s.Distinct) (event : UdpKeyEvent) :
    (s.step sha256 localHex event).1.Distinct := by
  cases event with
  | finish peerHex linkId => exact h
  | start peerHex linkId lockScreenEnabled now =>
    simp only [UdpKeys.step, registerUdpMotionKey]
    generalize deriveUdpKey sha256 localHex peerHex linkId = key
    have hkept := h.retain key now
    rw [Distinct, pushUdpMotionKey, List.map_append, List.nodup_append]
    refine ⟨?_, List.nodup_singleton _, ?_⟩
    · split_ifs
      · exact hkept.sublist ((List.tail_sublist _).map _)
      · exact hkept
    · intro a ha b hb hab
      obtain rfl : b = key := by simpa using hb
      have ha : a ∈ (retainUdpMotionKeys s.ring b now).map UdpMotionKey.key := by
        split_ifs at ha
        · exact ((List.tail_sublist _).map _).subset ha
        · exact ha
      obtain ⟨entry, hentry, rfl⟩ := List.mem_map.mp ha
      exact (mem_retain.mp hentry).2.1 hab

/-- Behind the head of a list without repetitions. -/
lemma mem_tail_iff {α : Type} {l : List α} (h : l.Nodup) {a : α} :
    a ∈ l.tail ↔ a ∈ l ∧ l.head? ≠ some a := by
  cases l with
  | nil => simp
  | cons b l =>
    rw [List.nodup_cons] at h
    rw [List.tail_cons, List.mem_cons, List.head?_cons, Ne, Option.some.injEq]
    constructor
    · intro ha
      refine ⟨Or.inr ha, ?_⟩
      rintro rfl
      exact h.1 ha
    · rintro ⟨rfl | ha, hne⟩
      · exact absurd rfl hne
      · exact ha

/-- The ring after a registration: its entry, and what is retained but for the head of 64. -/
lemma Distinct.mem_push (h : s.Distinct) {key : Key} {peerHex : String} {lockScreenEnabled : Bool}
    {now : ℕ} {entry : UdpMotionKey Key} :
    entry ∈ pushUdpMotionKey s.ring key peerHex lockScreenEnabled now ↔
      (entry ∈ retainUdpMotionKeys s.ring key now ∧
        (64 ≤ (retainUdpMotionKeys s.ring key now).length →
          (retainUdpMotionKeys s.ring key now).head? ≠ some entry)) ∨
      entry = ⟨key, peerHex, lockScreenEnabled, now⟩ := by
  have hnodup : (retainUdpMotionKeys s.ring key now).Nodup := (h.retain key now).of_map
  rw [pushUdpMotionKey, List.mem_append, List.mem_singleton]
  refine or_congr_left ?_
  split_ifs with hfull
  · rw [mem_tail_iff hnodup, forall_prop_of_true hfull]
  · rw [forall_prop_of_false hfull, and_true]

/-- An event keeps the keys in use exactly if it spares them. -/
lemma keyed_step_iff (hdistinct : s.Distinct) (h : s.Keyed) (event : UdpKeyEvent) :
    (s.step sha256 localHex event).1.Keyed ↔ s.Spares sha256 localHex event := by
  rw [keyed_iff] at h ⊢
  cases event with
  | finish peerHex linkId =>
    exact iff_of_true (fun key hkey => h key (List.mem_of_mem_erase hkey)) trivial
  | start peerHex linkId lockScreenEnabled now =>
    simp only [UdpKeys.step, registerUdpMotionKey, Spares]
    generalize deriveUdpKey sha256 localHex peerHex linkId = key
    constructor
    · intro hkeyed
      -- an entry in use is found again among the retained ones
      have hfind : ∀ entry ∈ s.ring, entry.key ∈ s.live → entry.key ≠ key →
          entry ∈ retainUdpMotionKeys s.ring key now ∧
            (64 ≤ (retainUdpMotionKeys s.ring key now).length →
              (retainUdpMotionKeys s.ring key now).head? ≠ some entry) := by
        intro entry hentry hlive hne
        obtain ⟨found, hfound, hkey⟩ := hkeyed _ (List.mem_cons_of_mem _ hlive)
        rcases hdistinct.mem_push.mp hfound with hkept | rfl
        · have hring := (mem_retain.mp hkept.1).1
          rwa [List.inj_on_of_nodup_map hdistinct hring hentry hkey] at hkept
        · exact absurd hkey.symm hne
      refine ⟨fun entry hentry hlive hne => ?_, fun hfull entry hhead hlive => ?_⟩
      · exact (mem_retain.mp (hfind entry hentry hlive hne).1).2.2
      · obtain ⟨hring, hne, -⟩ := mem_retain.mp (List.mem_of_mem_head? hhead)
        exact (hfind entry hring hlive hne).2 hfull hhead
    · rintro ⟨hage, hfirst⟩ used hused
      by_cases hkey : used = key
      · exact ⟨_, hdistinct.mem_push.mpr (Or.inr rfl), hkey.symm⟩
      have hlive : used ∈ s.live := (List.mem_cons.mp hused).resolve_left hkey
      obtain ⟨entry, hentry, rfl⟩ := h used hlive
      have hretained := mem_retain.mpr ⟨hentry, hkey, hage entry hentry hlive hkey⟩
      refine ⟨entry, hdistinct.mem_push.mpr (Or.inl ⟨hretained, fun hfull hhead => ?_⟩), rfl⟩
      exact hfirst hfull entry hhead hlive

/-! ### Runs -/

/-- At every point of a run. -/
def AlwaysKeyed (sha256 : List UInt8 → Key) (localHex : String) (events : List UdpKeyEvent) :
    Prop :=
  ∀ m, m <+: events → (after sha256 localHex m).Keyed

/-- **Keys in use**. Along a run every episode under way has its key in the ring, exactly if every
registration spares the keys in use. -/
theorem alwaysKeyed_iff_spares (sha256 : List UInt8 → Key) (localHex : String)
    (events : List UdpKeyEvent) :
    AlwaysKeyed sha256 localHex events ↔
      Trace.Each (fun m => (after sha256 localHex m).Spares sha256 localHex) events := by
  symm
  refine Trace.each_iff (I := fun m => (after sha256 localHex m).Keyed)
    (by simp [after, init, Keyed]) ?_
  intro m event _ _ hkeyed
  have hdistinct : (after sha256 localHex m).Distinct :=
    Trace.always (I := fun _ (s : UdpKeys Key) => s.Distinct) List.nodup_nil
      fun _ event h => h.step event
  rw [after, Trace.final_snoc]
  exact keyed_step_iff hdistinct (hkeyed m (by rfl)) event

lemma length_live_le (sha256 : List UInt8 → Key) (localHex : String) (events : List UdpKeyEvent) :
    (after sha256 localHex events).live.length ≤ events.length := by
  induction events using List.reverseRecOn with
  | nil => exact le_rfl
  | append_singleton events event ih =>
    rw [after, Trace.final_snoc, List.length_append, List.length_singleton]
    rw [after] at ih
    cases event with
    | start peerHex linkId lockScreenEnabled now => exact Nat.succ_le_succ ih
    | finish peerHex linkId =>
      calc _ ≤ (Trace.final (step sha256 localHex) init events).live.length :=
            List.erase_sublist.length_le
        _ ≤ events.length := ih
        _ ≤ events.length + 1 := Nat.le_succ _

/-- A drive of fifteen minutes, and then another peer connects. -/
def longDrive : List UdpKeyEvent :=
  [.start "b0" 1 false 0, .start "c0" 2 false 901000000000]

theorem long_drive_loses_key :
    ¬∀ (sha256 : List UInt8 → List UInt8) (localHex : String) (events : List UdpKeyEvent),
      (∀ m, m <+: events → (after sha256 localHex m).live.length ≤ 64) →
      AlwaysKeyed sha256 localHex events := by
  intro h
  have hkeyed := h id "a0" longDrive (fun m hm => ?_) longDrive List.prefix_rfl
  · have hlost : ¬(after id "a0" longDrive).Keyed := by
      rw [Keyed]
      decide +kernel
    exact hlost hkeyed
  · have hlength := length_live_le id "a0" m
    have hle : m.length ≤ 2 := hm.length_le
    omega

end UdpKeys

end TheKvm

import Mathlib.Data.Finset.Sort
import TheKvm.Daemon.Pinch

/-!
The captured state: which physical events are recorded, and what they hold.

Repeats of a held key are throttled and releases of keys never recorded are dropped. Who
folds the recorded events, from the start or from any snapshot on, holds what the sender
holds.
-/

namespace TheKvm

/-! ### Folding events -/

/-- Held keys and buttons. -/
@[ext] structure Held where
  keys : Finset HidUsage
  buttons : Finset MouseButton

namespace Held

def empty : Held := ⟨∅, ∅⟩

/-- Presses insert, releases remove. -/
def apply (h : Held) : InputEvent → Held
  | .key event =>
    { h with keys := if event.pressed then insert event.usage h.keys else h.keys.erase event.usage }
  | .mouseButton button pressed =>
    { h with buttons := if pressed then insert button h.buttons else h.buttons.erase button }
  | _ => h

/-- The state a sender reports, in the order of its sets. -/
def toInputState (h : Held) : InputState where
  pressedKeys := ((h.keys.image UInt16.toNat).sort).map UInt16.ofNat
  pressedButtons :=
    [MouseButton.left, .right, .middle, .back, .forward].filter (· ∈ h.buttons)

/-- What a receiver holds after it takes a reported state. -/
def ofInputState (state : InputState) : Held :=
  ⟨state.pressedKeys.toFinset, state.pressedButtons.toFinset⟩

@[simp] lemma ofInputState_toInputState (h : Held) : ofInputState h.toInputState = h := by
  ext a
  · simp only [ofInputState, toInputState, List.mem_toFinset, List.mem_map, Finset.mem_sort,
      Finset.mem_image]
    constructor
    · rintro ⟨_, ⟨b, hb, rfl⟩, rfl⟩
      rwa [UInt16.ofNat_toNat]
    · intro ha
      exact ⟨a.toNat, ⟨a, ha, rfl⟩, UInt16.ofNat_toNat⟩
  · cases a <;> simp [ofInputState, toInputState]

end Held

/-! ### Recording -/

structure CapturedEvent where
  event : InputEvent
  eventId : UInt64
  deriving DecidableEq

structure CaptureSnapshot where
  state : InputState
  lastEventId : UInt64

/-- `REPEAT_THROTTLE_WINDOW`, in nanoseconds. -/
def repeatThrottleWindow : ℕ := 33000000

structure CapturedState where
  lastEventId : UInt64
  keys : Finset HidUsage
  buttons : Finset MouseButton
  /-- When a repeat was last recorded for a key. -/
  lastRepeat : HidUsage → Option ℕ

namespace CapturedState

/-- `CapturedState::default`. -/
def default : CapturedState := ⟨0, ∅, ∅, fun _ => none⟩

/-- A repeat so soon after the last is the same finger. -/
def throttled (s : CapturedState) (usage : HidUsage) (now : ℕ) : Bool :=
  (s.lastRepeat usage).any fun at' => now - at' < repeatThrottleWindow

/-- Number and report an event. -/
def emit (s : CapturedState) (event : InputEvent) : CapturedState × Option CapturedEvent :=
  let lastEventId := s.lastEventId + 1
  ({ s with lastEventId }, some ⟨event, lastEventId⟩)

/-- Record one physical event, at a time of the monotonic clock. -/
def record (s : CapturedState) (event : InputEvent) (now : ℕ) :
    CapturedState × Option CapturedEvent :=
  match event with
  | .key key =>
    if key.pressed then
      if key.usage ∈ s.keys then
        if s.throttled key.usage now then (s, none)
        else
          let lastRepeat := Function.update s.lastRepeat key.usage (some now)
          { s with lastRepeat, keys := insert key.usage s.keys }.emit
            (.key { key with repeated := true })
      else
        let lastRepeat := Function.update s.lastRepeat key.usage none
        { s with lastRepeat, keys := insert key.usage s.keys }.emit
          (.key { key with repeated := false })
    else
      let s := { s with lastRepeat := Function.update s.lastRepeat key.usage none }
      if key.usage ∈ s.keys then
        { s with keys := s.keys.erase key.usage }.emit (.key { key with repeated := false })
      else (s, none)
  | .mouseButton button pressed =>
    let buttons := if pressed then insert button s.buttons else s.buttons.erase button
    { s with buttons }.emit (.mouseButton button pressed)
  | .mouseMove dx dy => s.emit (.mouseMove dx dy)
  | .wheel delta => s.emit (.wheel delta)
  | .smoothWheel x y => s.emit (.smoothWheel x y)
  | .pinch _ | .pinchEnd => (s, none)

/-- What is held. -/
def held (s : CapturedState) : Held := ⟨s.keys, s.buttons⟩

def snapshot (s : CapturedState) : CaptureSnapshot := ⟨s.held.toInputState, s.lastEventId⟩

def step (s : CapturedState) (input : InputEvent × ℕ) : CapturedState × Option CapturedEvent :=
  s.record input.1 input.2

/-- The events a run of inputs returns. -/
def returned (s : CapturedState) (inputs : List (InputEvent × ℕ)) : List CapturedEvent :=
  (Trace.outputs step s inputs).filterMap id

/-- Fold returned events. -/
def replay (h : Held) (events : List CapturedEvent) : Held :=
  events.foldl (fun h captured => h.apply captured.event) h

/-- What must come back for an input: a fresh press as one, the press of a held key only as a
repeat, the release of a held key, and every button change. -/
def Reports (s : CapturedState) (event : InputEvent) (result : Option CapturedEvent) : Prop :=
  match event with
  | .key key =>
    if key.pressed then
      if key.usage ∈ s.keys then
        ∀ captured, result = some captured → captured.event = .key { key with repeated := true }
      else ∃ eventId, result = some ⟨.key { key with repeated := false }, eventId⟩
    else key.usage ∈ s.keys →
      ∃ eventId, result = some ⟨.key { key with repeated := false }, eventId⟩
  | .mouseButton button pressed => ∃ eventId, result = some ⟨.mouseButton button pressed, eventId⟩
  | _ => True

/-! ### One event -/

/-- An event is returned under the next number and folded into what is held, or it is dropped
and nothing changes. -/
lemma record_cases (s : CapturedState) (event : InputEvent) (now : ℕ) :
    (∃ sent, (s.record event now).2 = some ⟨sent, s.lastEventId + 1⟩ ∧
      (s.record event now).1.lastEventId = s.lastEventId + 1 ∧
      (s.record event now).1.held = s.held.apply sent) ∨
    ((s.record event now).2 = none ∧ (s.record event now).1.lastEventId = s.lastEventId ∧
      (s.record event now).1.held = s.held) := by
  cases event with
  | key key =>
    obtain ⟨usage, pressed, repeated⟩ := key
    by_cases hheld : usage ∈ s.keys
    · cases pressed
      · exact Or.inl ⟨_, by simp [record, emit, hheld]; rfl, by simp [record, emit, hheld],
          by simp [record, emit, hheld, held, Held.apply]⟩
      · cases hthrottled : s.throttled usage now
        · exact Or.inl ⟨_, by simp [record, emit, hheld, hthrottled]; rfl,
            by simp [record, emit, hheld, hthrottled],
            by simp [record, emit, hheld, hthrottled, held, Held.apply]⟩
        · exact Or.inr (by simp [record, hheld, hthrottled])
    · cases pressed
      · exact Or.inr (by simp [record, hheld, held])
      · exact Or.inl ⟨_, by simp [record, emit, hheld]; rfl, by simp [record, emit, hheld],
          by simp [record, emit, hheld, held, Held.apply]⟩
  | mouseButton button pressed =>
    exact Or.inl ⟨_, rfl, rfl, rfl⟩
  | pinch | pinchEnd => exact Or.inr ⟨rfl, rfl, rfl⟩
  | mouseMove | wheel | smoothWheel => exact Or.inl ⟨_, rfl, rfl, rfl⟩

lemma record_reports (s : CapturedState) (event : InputEvent) (now : ℕ) :
    s.Reports event (s.record event now).2 := by
  cases event with
  | key key =>
    obtain ⟨usage, pressed, repeated⟩ := key
    by_cases hheld : usage ∈ s.keys <;> cases pressed <;> simp [Reports, record, emit, hheld]
    rintro captured
    cases s.throttled usage now
    · rintro ⟨⟩
      rfl
    · rintro ⟨⟩
  | mouseButton button pressed => exact ⟨_, rfl⟩
  | _ => trivial

/-! ### Runs -/

lemma replay_append (h : Held) (l m : List CapturedEvent) :
    replay h (l ++ m) = replay (replay h l) m := List.foldl_append

lemma returned_cons (s : CapturedState) (input : InputEvent × ℕ)
    (inputs : List (InputEvent × ℕ)) :
    returned s (input :: inputs) = (s.step input).2.toList ++ returned (s.step input).1 inputs := by
  rw [returned, Trace.outputs]
  cases (s.step input).2 <;> rfl

lemma returned_append (s : CapturedState) (l m : List (InputEvent × ℕ)) :
    returned s (l ++ m) = returned s l ++ returned (Trace.final step s l) m := by
  rw [returned, Trace.outputs_append, List.filterMap_append]
  rfl

/-- Whatever is dropped, the returned events make up what is held. -/
lemma replay_returned (s : CapturedState) (inputs : List (InputEvent × ℕ)) :
    replay s.held (returned s inputs) = (Trace.final step s inputs).held := by
  induction inputs generalizing s with
  | nil => rfl
  | cons input inputs ih =>
    rw [returned_cons, replay_append, Trace.final_cons, ← ih (s.step input).1]
    congr 1
    rcases s.record_cases input.1 input.2 with ⟨sent, hout, -, hheld⟩ | ⟨hout, -, hheld⟩
    · rw [step, hout, hheld]
      rfl
    · rw [step, hout, hheld]
      rfl

/-- The numbers of the returned events follow one another. -/
lemma returned_ids (s : CapturedState) (inputs : List (InputEvent × ℕ)) :
    (returned s inputs).map CapturedEvent.eventId =
        (List.range (returned s inputs).length).map (fun i => s.lastEventId + .ofNat (i + 1)) ∧
      (Trace.final step s inputs).lastEventId =
        s.lastEventId + .ofNat (returned s inputs).length := by
  induction inputs generalizing s with
  | nil => exact ⟨rfl, (UInt64.add_zero _).symm⟩
  | cons input inputs ih =>
    obtain ⟨hids, hlast⟩ := ih (s.step input).1
    rw [returned_cons, Trace.final_cons]
    rw [step] at hids hlast ⊢
    rcases s.record_cases input.1 input.2 with ⟨sent, hout, hid, -⟩ | ⟨hout, hid, -⟩
    · rw [hid] at hids hlast
      have hnext (n : ℕ) : s.lastEventId + 1 + .ofNat n = s.lastEventId + .ofNat (n + 1) := by
        rw [UInt64.add_assoc, UInt64.add_comm 1, UInt64.ofNat_add, UInt64.ofNat_one]
      rw [hout, Option.toList_some, List.singleton_append, List.map_cons, List.length_cons, hids,
        hlast, hnext, List.range_succ_eq_map, List.map_cons, List.map_map]
      refine ⟨List.cons_eq_cons.mpr ⟨rfl, List.map_congr_left fun i _ => hnext _⟩, rfl⟩
    · rw [hid] at hids hlast
      rw [hout]
      exact ⟨hids, hlast⟩

/-- While the counter does not wrap, what is returned from a state on has larger numbers. -/
lemma eventId_bounds {s : CapturedState} {inputs : List (InputEvent × ℕ)}
    {captured : CapturedEvent} (h : captured ∈ returned s inputs)
    (hlt : s.lastEventId.toNat + (returned s inputs).length < 2 ^ 64) :
    s.lastEventId.toNat < captured.eventId.toNat ∧
      captured.eventId.toNat ≤ s.lastEventId.toNat + (returned s inputs).length := by
  have hmem := List.mem_map_of_mem (f := CapturedEvent.eventId) h
  rw [(returned_ids s inputs).1] at hmem
  obtain ⟨i, hi, hid⟩ := List.mem_map.mp hmem
  have hi := List.mem_range.mp hi
  rw [← hid, UInt64.toNat_add, UInt64.toNat_ofNat', Nat.mod_eq_of_lt (a := i + 1) (by omega),
    Nat.mod_eq_of_lt (by omega)]
  omega

@[simp] lemma default_lastEventId : default.lastEventId = 0 := rfl

/-- The events returned after a snapshot are those with larger numbers. -/
lemma newer_eq_returned {m k : List (InputEvent × ℕ)}
    (hlt : (returned default (m ++ k)).length < 2 ^ 64) :
    (returned default (m ++ k)).filter
        (fun captured => (Trace.final step default m).lastEventId < captured.eventId) =
      returned (Trace.final step default m) k := by
  rw [returned_append, List.length_append] at hlt
  have hlast : (Trace.final step default m).lastEventId.toNat = (returned default m).length := by
    rw [(returned_ids default m).2, default_lastEventId, UInt64.zero_add, UInt64.toNat_ofNat',
      Nat.mod_eq_of_lt (by omega)]
  rw [returned_append, List.filter_append, List.filter_eq_nil_iff.mpr, List.nil_append,
    List.filter_eq_self.mpr]
  · intro captured h
    have := eventId_bounds h (by omega)
    simp only [decide_eq_true_eq, UInt64.lt_iff_toNat_lt]
    omega
  · intro captured h
    have := eventId_bounds h (by rw [default_lastEventId, UInt64.toNat_zero]; omega)
    rw [default_lastEventId, UInt64.toNat_zero] at this
    simp only [decide_eq_true_eq, UInt64.lt_iff_toNat_lt]
    omega

/-- **Replay.** At every point of a recording the returned events fold into what is held, their
numbers are consecutive modulo 2^64, and each input is reported as it must be; and who takes a
snapshot and then what is returned after it, the events with larger numbers while the counter
has not wrapped, holds what the sender holds. -/
theorem replay_exact (inputs : List (InputEvent × ℕ)) :
    (replay Held.empty (returned default inputs)).toInputState =
        (Trace.final step default inputs).snapshot.state ∧
      (returned default inputs).map CapturedEvent.eventId =
        (List.range (returned default inputs).length).map (fun i => .ofNat (i + 1)) ∧
      (∀ m event now, m ++ [(event, now)] <+: inputs →
        (Trace.final step default m).Reports event
          ((Trace.final step default m).record event now).2) ∧
      ∀ m k, inputs = m ++ k →
        let snapshot := (Trace.final step default m).snapshot
        replay (.ofInputState snapshot.state) (returned (Trace.final step default m) k) =
            (Trace.final step default inputs).held ∧
          ((returned default inputs).length < 2 ^ 64 →
            replay (.ofInputState snapshot.state)
                ((returned default inputs).filter
                  (fun captured => snapshot.lastEventId < captured.eventId)) =
              (Trace.final step default inputs).held) := by
  have hrest (m k : List (InputEvent × ℕ)) :
      replay (.ofInputState (Trace.final step default m).snapshot.state)
          (returned (Trace.final step default m) k) =
        (Trace.final step default (m ++ k)).held := by
    rw [snapshot, Held.ofInputState_toInputState, replay_returned, ← Trace.final_append]
  refine ⟨congrArg Held.toInputState (replay_returned default inputs), ?_,
    fun m event now _ => record_reports _ event now, ?_⟩
  · rw [(returned_ids default inputs).1]
    refine List.map_congr_left fun i _ => ?_
    exact UInt64.zero_add _
  · rintro m k rfl
    refine ⟨hrest m k, fun hlt => ?_⟩
    rw [← hrest m k]
    exact congrArg _ (newer_eq_returned hlt)

theorem replay_exact_press :
    replay (.ofInputState default.snapshot.state)
        ((returned default [(.key ⟨4, true, false⟩, 0)]).filter
          (fun captured => default.snapshot.lastEventId < captured.eventId)) =
      (Trace.final step default [(.key ⟨4, true, false⟩, 0)]).held :=
  ((replay_exact [(.key ⟨4, true, false⟩, 0)]).2.2.2 [] _ rfl).2 (by decide)

/-- Motion is returned and holds nothing. -/
lemma returned_moves (n : ℕ) :
    (Trace.final step default (List.replicate n (.mouseMove 0 0, 0))).held = Held.empty ∧
      (returned default (List.replicate n (.mouseMove 0 0, 0))).length = n := by
  induction n with
  | zero => exact ⟨rfl, rfl⟩
  | succ n ih =>
    rw [List.replicate_succ', Trace.final_snoc, returned_append, List.length_append, ih.2]
    exact ⟨ih.1, rfl⟩

/-- After 2^64 - 1 events the next is number 0, and a snapshot between them skips it. -/
theorem snapshot_misses_wrapped :
    ¬∀ m k : List (InputEvent × ℕ),
      replay (.ofInputState (Trace.final step default m).snapshot.state)
          ((returned default (m ++ k)).filter
            (fun captured => (Trace.final step default m).snapshot.lastEventId <
              captured.eventId)) =
        (Trace.final step default (m ++ k)).held := by
  intro h
  obtain ⟨n, hn⟩ : ∃ n, n + 1 = 2 ^ 64 := ⟨2 ^ 64 - 1, by omega⟩
  obtain ⟨hheld, hlength⟩ := returned_moves n
  generalize List.replicate n ((.mouseMove 0 0, 0) : InputEvent × ℕ) = m at hheld hlength
  have hlast : (Trace.final step default m).lastEventId.toNat = n := by
    rw [(returned_ids default m).2, hlength, default_lastEventId, UInt64.zero_add,
      UInt64.toNat_ofNat', Nat.mod_eq_of_lt (by omega)]
  have hm := h m [(.key ⟨4, true, false⟩, 0)]
  rw [List.filter_eq_nil_iff.mpr, Trace.final_snoc] at hm
  · have hkeys : (Trace.final step default m).keys = ∅ := congrArg Held.keys hheld
    have hpress := congrArg Held.keys hm
    rw [snapshot, Held.ofInputState_toInputState, hheld] at hpress
    simp [step, record, emit, held, hkeys, replay, Held.empty] at hpress
  · intro captured _
    have := captured.eventId.toNat_lt
    simp only [decide_eq_true_eq, UInt64.lt_iff_toNat_lt, snapshot, hlast]
    omega

end CapturedState

end TheKvm

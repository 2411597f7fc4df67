import Mathlib.Algebra.Group.Prod
import Mathlib.Data.List.Infix
import TheKvm.Daemon.Barrier
import TheKvm.Lib.Coalesce
import TheKvm.Lib.Trace
import TheKvm.Platform.Evdev

/-!
The motion arm of the drive loop: it folds consecutive moves, or consecutive smooth wheels, into
one event with the number of the first, tests the barrier and hands the event on.

Folding changes nothing that is handed on as long as no burst straddles the barrier and no sum of
one leaves 32 bits.
-/

namespace TheKvm

open Evdev (toInt_saturatingAdd)

namespace BurstFold

/-! ### The arm -/

def moveDelta : InputEvent → Option (Int32 × Int32)
  | .mouseMove dx dy => some (dx, dy)
  | _ => none

def smoothDelta : InputEvent → Option (Int32 × Int32)
  | .smoothWheel x y => some (x, y)
  | _ => none

def addDelta (a b : Int32 × Int32) : Int32 × Int32 :=
  (Evdev.saturatingAdd a.1 b.1, Evdev.saturatingAdd a.2 b.2)

/-- The loop of a fold: the sum, the event that stopped it and the rest of the queue. -/
def foldQueued (delta : InputEvent → Option (Int32 × Int32)) :
    ℕ → Int32 × Int32 → List CapturedEvent →
      (Int32 × Int32) × Option CapturedEvent × List CapturedEvent
  | 0, sum, queue => (sum, none, queue)
  | _ + 1, sum, [] => (sum, none, [])
  | n + 1, sum, next :: queue =>
    match delta next.event with
    | some d => foldQueued delta n (addDelta sum d) queue
    | none => (sum, some next, queue)

def foldBurst (first : CapturedEvent) (queue : List CapturedEvent) :
    CapturedEvent × Option CapturedEvent × List CapturedEvent :=
  match first.event with
  | .mouseMove dx dy =>
    let (sum, pending, queue) := foldQueued moveDelta 4 (dx, dy) queue
    ({ first with event := .mouseMove sum.1 sum.2 }, pending, queue)
  | .smoothWheel x y =>
    let (sum, pending, queue) := foldQueued smoothDelta 8 (x, y) queue
    ({ first with event := .smoothWheel sum.1 sum.2 }, pending, queue)
  | _ => (first, none, queue)

end BurstFold

/-- `motion_pending` and what is queued in `motion_rx`. -/
structure MotionArm where
  pending : Option CapturedEvent
  queue : List CapturedEvent

/-- `discarded_event_barrier` and the barrier of the active session. -/
structure DriveBarrier where
  discarded : UInt64
  session : Option UInt64

inductive MotionOp
  | arrive (captured : CapturedEvent)
  | turn

namespace MotionArm

variable (barrier : DriveBarrier)

def start : MotionArm := ⟨none, []⟩

/-- What the arm has still to take, the stashed event first. -/
def waiting (s : MotionArm) : List CapturedEvent := s.pending.toList ++ s.queue

def passes (captured : CapturedEvent) : Bool :=
  eventPassesBarrier captured.eventId barrier.discarded barrier.session captured.event.isRelease

/-- One iteration of the arm, and what it hands to the topology. -/
def turn (s : MotionArm) : MotionArm × Option CapturedEvent :=
  match s.waiting with
  | [] => (s, none)
  | first :: queue =>
    let (captured, pending, queue) := BurstFold.foldBurst first queue
    (⟨pending, queue⟩, if passes barrier captured then some captured else none)

def step (s : MotionArm) : MotionOp → MotionArm × Option CapturedEvent
  | .arrive captured => ({ s with queue := s.queue ++ [captured] }, none)
  | .turn => s.turn barrier

def after (ops : List MotionOp) : MotionArm := Trace.final (step barrier) start ops

/-- What is queued in a run. -/
def arrived (ops : List MotionOp) : List CapturedEvent :=
  ops.filterMap fun
    | .arrive captured => some captured
    | .turn => none

/-- What is handed on in a run. -/
def handed (ops : List MotionOp) : List CapturedEvent :=
  (Trace.outputs (step barrier) start ops).filterMap id

/-! ### What folding keeps -/

inductive MotionKind
  | move
  | smooth
  | other (event : InputEvent)
  deriving DecidableEq

def MotionKind.folds : MotionKind → Bool
  | .move => true
  | .smooth => true
  | .other _ => false

def amount (delta : Int32 × Int32) : ℤ × ℤ := (delta.1.toInt, delta.2.toInt)

/-- An event as an amount of its kind. -/
def item (captured : CapturedEvent) : MotionKind × (ℤ × ℤ) :=
  match captured.event with
  | .mouseMove dx dy => (.move, amount (dx, dy))
  | .smoothWheel x y => (.smooth, amount (x, y))
  | event => (.other event, 0)

/-- The displacement of a kind. -/
def displacement (kind : MotionKind) (l : List CapturedEvent) : ℤ × ℤ :=
  Coalesce.total kind (l.map item)

/-- The events that do not fold: the detent wheels. -/
def wheels (l : List CapturedEvent) : List MotionKind :=
  (Coalesce.unfolded MotionKind.folds (l.map item)).map Prod.fst

/-- Two lists move and scroll alike: in total, in the detents, and with the moves and the wheels
in one order. -/
structure Alike (l m : List CapturedEvent) : Prop where
  moved : displacement .move l = displacement .move m
  scrolled : displacement .smooth l = displacement .smooth m
  wheels : wheels l = wheels m
  order : Coalesce.segments MotionKind.folds (l.map item) =
    Coalesce.segments MotionKind.folds (m.map item)

/-- What the next turn folds into one event. -/
def burst : List CapturedEvent → List CapturedEvent
  | [] => []
  | first :: queue =>
    first :: match first.event with
      | .mouseMove .. =>
        (queue.takeWhile fun next => (BurstFold.moveDelta next.event).isSome).take 4
      | .smoothWheel .. =>
        (queue.takeWhile fun next => (BurstFold.smoothDelta next.event).isSome).take 8
      | _ => []

/-- A sum of two 32-bit numbers. -/
def InRange (sum : ℤ × ℤ) : Prop :=
  (-2 ^ 31 ≤ sum.1 ∧ sum.1 < 2 ^ 31) ∧ -2 ^ 31 ≤ sum.2 ∧ sum.2 < 2 ^ 31

/-- The burst lies on one side of the barrier, and if it passes, none of its sums saturates. -/
def Clear (m : List MotionOp) : MotionOp → Prop
  | .arrive _ => True
  | .turn =>
    let next := burst (after barrier m).waiting
    ((∀ captured ∈ next, passes barrier captured = true) ∧
      ∀ l, l <+: next → InRange ((l.map item).map Prod.snd).sum) ∨
    ∀ captured ∈ next, passes barrier captured = false

/-! ### One fold -/

section

open BurstFold

variable {delta : InputEvent → Option (Int32 × Int32)} {kind : MotionKind}
  {sum : Int32 × Int32} {l queue : List CapturedEvent}

/-- What the loop adds to the sum for an event. -/
def addEvent (delta : InputEvent → Option (Int32 × Int32)) (sum : Int32 × Int32)
    (captured : CapturedEvent) : Int32 × Int32 :=
  (delta captured.event).elim sum (addDelta sum)

/-- The loop takes the next events of its kind, at most `n`, and leaves the rest in order. -/
lemma foldQueued_eq (n : ℕ) :
    (foldQueued delta n sum queue).1 =
        ((queue.takeWhile fun next => (delta next.event).isSome).take n).foldl
          (addEvent delta) sum ∧
      (foldQueued delta n sum queue).2.1.toList ++ (foldQueued delta n sum queue).2.2 =
        queue.drop ((queue.takeWhile fun next => (delta next.event).isSome).take n).length := by
  induction n generalizing sum queue with
  | zero => simp [foldQueued]
  | succ n ih =>
    rcases queue with _ | ⟨next, queue⟩
    · simp [foldQueued]
    · rcases hnext : delta next.event with _ | d
      · simp [foldQueued, hnext]
      · obtain ⟨hsum, hrest⟩ := @ih (addDelta sum d) queue
        rw [List.takeWhile_cons_of_pos (by rw [hnext]; rfl), List.take_succ_cons, List.length_cons,
          List.drop_succ_cons, List.foldl_cons, addEvent, hnext]
        simp only [foldQueued, hnext]
        exact ⟨hsum, hrest⟩

lemma amount_addDelta {a b : Int32 × Int32} (h : InRange (amount a + amount b)) :
    amount (addDelta a b) = amount a + amount b := by
  obtain ⟨⟨hlow, hhigh⟩, hlow', hhigh'⟩ := h
  simp only [amount, Prod.fst_add, Prod.snd_add] at hlow hhigh hlow' hhigh'
  simp only [amount, addDelta, toInt_saturatingAdd, Prod.mk_add_mk, Prod.mk.injEq]
  omega

/-- A sum that never leaves 32 bits is exact. -/
lemma amount_foldl (hkind : ∀ captured d, delta captured.event = some d →
      item captured = (kind, amount d))
    (hl : ∀ captured ∈ l, (delta captured.event).isSome)
    (hrange : ∀ m, m <+: l → InRange (amount sum + ((m.map item).map Prod.snd).sum)) :
    amount (l.foldl (addEvent delta) sum) = amount sum + ((l.map item).map Prod.snd).sum := by
  induction l using List.reverseRecOn with
  | nil => simp
  | append_singleton l last ih =>
    obtain ⟨d, hd⟩ := Option.isSome_iff_exists.mp (hl last (by simp))
    have hlast := hrange _ (List.prefix_refl _)
    have ih := ih (fun captured h => hl captured (List.mem_append_left _ h)) fun m hm =>
      hrange m (hm.trans (List.prefix_append _ _))
    rw [List.map_append, List.map_append, List.sum_append, ← add_assoc, ← ih] at hlast ⊢
    rw [List.foldl_append, List.foldl_cons, List.foldl_nil]
    simp only [List.map_cons, List.map_nil, List.sum_cons, List.sum_nil, add_zero,
      hkind last d hd] at hlast ⊢
    rw [addEvent, hd]
    exact amount_addDelta hlast

/-- A burst of one kind joins the segments as the one event that it is folded into. -/
lemma foldl_burst {first : CapturedEvent} (n : ℕ) (hfolds : kind.folds = true)
    (hkind : ∀ captured d, delta captured.event = some d → item captured = (kind, amount d))
    (hfirst : item first = (kind, amount sum))
    (hrange : ∀ m,
      m <+: first :: (queue.takeWhile fun next => (delta next.event).isSome).take n →
        InRange ((m.map item).map Prod.snd).sum)
    (segments : List (MotionKind × (ℤ × ℤ))) :
    ((first :: (queue.takeWhile fun next => (delta next.event).isSome).take n).map item).foldl
        (Coalesce.push MotionKind.folds) segments =
      Coalesce.push MotionKind.folds segments
        (kind, amount (foldQueued delta n sum queue).1) := by
  set rest := (queue.takeWhile fun next => (delta next.event).isSome).take n with hrest
  have hdelta : ∀ captured ∈ rest, (delta captured.event).isSome := fun captured h =>
    List.mem_takeWhile_imp (p := fun next : CapturedEvent => (delta next.event).isSome)
      (List.mem_of_mem_take h)
  have hsame : ∀ entry ∈ rest.map item, entry.1 = kind := by
    intro entry hentry
    obtain ⟨captured, hcaptured, rfl⟩ := List.mem_map.mp hentry
    obtain ⟨d, hd⟩ := Option.isSome_iff_exists.mp (hdelta captured hcaptured)
    rw [hkind captured d hd]
  have hsum : amount (foldQueued delta n sum queue).1 =
      amount sum + ((rest.map item).map Prod.snd).sum := by
    rw [(foldQueued_eq n).1, ← hrest]
    refine amount_foldl hkind hdelta fun m hm => ?_
    have := hrange (first :: m) (List.cons_prefix_cons.mpr ⟨rfl, hm⟩)
    rwa [List.map_cons, List.map_cons, List.sum_cons, hfirst] at this
  rw [List.map_cons, List.foldl_cons, hfirst, Coalesce.foldl_push hfolds hsame, hsum]

end

/-! ### One turn -/

section

variable {barrier : DriveBarrier} {first : CapturedEvent} {queue : List CapturedEvent}

lemma isPrefix_burst (waiting : List CapturedEvent) : burst waiting <+: waiting := by
  have htake : ∀ (p : CapturedEvent → Bool) (n : ℕ) (queue : List CapturedEvent),
      (queue.takeWhile p).take n <+: queue := fun p n queue =>
    (List.take_prefix _ _).trans (List.takeWhile_prefix p)
  rcases waiting with _ | ⟨first, queue⟩
  · exact List.prefix_refl _
  · rw [burst, List.cons_prefix_cons]
    refine ⟨rfl, ?_⟩
    split
    · exact htake _ _ _
    · exact htake _ _ _
    · exact List.nil_prefix

/-- What a fold leaves waits in its order. -/
lemma foldBurst_rest (first : CapturedEvent) (queue : List CapturedEvent) :
    (BurstFold.foldBurst first queue).2.1.toList ++ (BurstFold.foldBurst first queue).2.2 =
      (first :: queue).drop (burst (first :: queue)).length := by
  rw [burst, List.length_cons, List.drop_succ_cons, BurstFold.foldBurst]
  split
  · exact (foldQueued_eq 4).2
  · exact (foldQueued_eq 8).2
  · rfl

/-- The folded event passes the barrier as its first part does. -/
lemma passes_foldBurst (first : CapturedEvent) (queue : List CapturedEvent) :
    passes barrier (BurstFold.foldBurst first queue).1 = passes barrier first := by
  rw [BurstFold.foldBurst]
  split
  · next h => simp [passes, h, InputEvent.isRelease]
  · next h => simp [passes, h, InputEvent.isRelease]
  · rfl

/-- A burst whose sums fit 32 bits is handed on as what it is. -/
lemma foldl_foldBurst (hrange : ∀ l, l <+: burst (first :: queue) →
      InRange ((l.map item).map Prod.snd).sum) (segments : List (MotionKind × (ℤ × ℤ))) :
    ((burst (first :: queue)).map item).foldl (Coalesce.push MotionKind.folds) segments =
      Coalesce.push MotionKind.folds segments
        (item (BurstFold.foldBurst first queue).1) := by
  have hmove : ∀ captured d, BurstFold.moveDelta captured.event = some d →
      item captured = (.move, amount d) := by
    intro captured d h
    rw [item]
    cases hevent : captured.event <;> rw [hevent] at h <;> cases h
    rfl
  have hsmooth : ∀ captured d, BurstFold.smoothDelta captured.event = some d →
      item captured = (.smooth, amount d) := by
    intro captured d h
    rw [item]
    cases hevent : captured.event <;> rw [hevent] at h <;> cases h
    rfl
  rcases hevent : first.event with _ | ⟨dx, dy⟩ | _ | _ | ⟨x, y⟩ | _ | _
  case mouseMove =>
    have hburst : burst (first :: queue) = first ::
        (queue.takeWhile fun next => (BurstFold.moveDelta next.event).isSome).take 4 := by
      simp only [burst, hevent]
    rw [hburst] at hrange ⊢
    rw [foldl_burst 4 rfl hmove (hmove first (dx, dy) (by rw [hevent]; rfl)) hrange]
    simp only [BurstFold.foldBurst, hevent, item]
  case smoothWheel =>
    have hburst : burst (first :: queue) = first ::
        (queue.takeWhile fun next => (BurstFold.smoothDelta next.event).isSome).take 8 := by
      simp only [burst, hevent]
    rw [hburst] at hrange ⊢
    rw [foldl_burst 8 rfl hsmooth (hsmooth first (x, y) (by rw [hevent]; rfl)) hrange]
    simp only [BurstFold.foldBurst, hevent, item]
  all_goals
    simp only [burst, BurstFold.foldBurst, hevent]
    rfl

/-- A turn takes the burst off what waits. -/
lemma turn_eq (barrier : DriveBarrier) (s : MotionArm) :
    (s.turn barrier).1.waiting = s.waiting.drop (burst s.waiting).length ∧
      (s.turn barrier).2 = s.waiting.head?.bind fun first =>
        if passes barrier first then
          some (BurstFold.foldBurst first s.waiting.tail).1
        else none := by
  rcases hwaiting : s.waiting with _ | ⟨first, queue⟩
  · simp [turn, hwaiting, burst]
  · have hrest := foldBurst_rest first queue
    have hpasses : passes barrier (BurstFold.foldBurst first queue).1 = passes barrier first :=
      passes_foldBurst first queue
    simp only [turn, hwaiting, hpasses, List.head?_cons, Option.bind_some, List.tail_cons]
    exact ⟨hrest, trivial⟩

end

/-! ### A whole run -/

section

variable {barrier : DriveBarrier} {m ops : List MotionOp} {op : MotionOp}

lemma after_snoc (barrier : DriveBarrier) (m : List MotionOp) (op : MotionOp) :
    after barrier (m ++ [op]) = (step barrier (after barrier m) op).1 := Trace.final_snoc _ _ _ _

lemma handed_snoc (barrier : DriveBarrier) (m : List MotionOp) (op : MotionOp) :
    handed barrier (m ++ [op]) =
      handed barrier m ++ (step barrier (after barrier m) op).2.toList := by
  rw [handed, Trace.outputs_snoc, List.filterMap_append]
  change _ ++ List.filterMap id [(step barrier (after barrier m) op).2] = _
  rcases (step barrier (after barrier m) op).2 with _ | captured <;> rfl

/-- What is taken off the queue is handed on with the same segments. -/
def Kept (barrier : DriveBarrier) (m : List MotionOp) (s : MotionArm) : Prop :=
  ∃ taken, arrived m = taken ++ s.waiting ∧
    Coalesce.segments MotionKind.folds ((handed barrier m).map item) =
      Coalesce.segments MotionKind.folds ((taken.filter (passes barrier)).map item)

lemma Kept.snoc (h : Kept barrier m (after barrier m)) (hclear : Clear barrier m op) :
    Kept barrier (m ++ [op]) (step barrier (after barrier m) op).1 := by
  obtain ⟨taken, harrived, hsegments⟩ := h
  cases op with
  | arrive captured =>
    refine ⟨taken, ?_, ?_⟩
    · rw [arrived, List.filterMap_append]
      change arrived m ++ [captured] = _
      rw [harrived, step, waiting, waiting, List.append_assoc, List.append_assoc]
    · rw [handed_snoc, step]
      simpa using hsegments
  | turn =>
    set waiting := (after barrier m).waiting with hwaiting
    obtain ⟨hrest, hhanded⟩ := turn_eq barrier (after barrier m)
    rw [← hwaiting] at hrest hhanded
    refine ⟨taken ++ burst waiting, ?_, ?_⟩
    · rw [arrived, List.filterMap_append]
      change arrived m ++ [] = _
      rw [step, hrest, harrived, List.append_nil, List.append_assoc,
        List.prefix_iff_eq_append.mp (isPrefix_burst waiting)]
    · rw [handed_snoc, step, hhanded, List.filter_append, List.map_append, List.map_append,
        Coalesce.segments_append, Coalesce.segments_append, hsegments]
      rcases hw : waiting with _ | ⟨first, queue⟩
      · rfl
      · have hmem : first ∈ burst (first :: queue) := List.mem_cons_self
        rw [Clear, ← hwaiting, hw] at hclear
        rcases hclear with ⟨hpass, hrange⟩ | hdrop
        · rw [List.filter_eq_self.mpr hpass, foldl_foldBurst hrange]
          simp [hpass first hmem]
        · have hnil : (burst (first :: queue)).filter (passes barrier) = [] :=
            List.filter_eq_nil_iff.mpr fun captured h => by simp [hdrop captured h]
          rw [hnil]
          simp [hdrop first hmem]

/-- **Burst folding is transparent.** In a run whose bursts each lie on one side of the barrier and
sum up within 32 bits, the events handed on move and scroll like those that were taken off the
queue and pass the barrier. -/
theorem folding_transparent (barrier : DriveBarrier) (ops : List MotionOp)
    (hclear : Trace.Each (Clear barrier) ops) :
    ∃ taken, arrived ops = taken ++ (after barrier ops).waiting ∧
      Alike (handed barrier ops) (taken.filter (passes barrier)) := by
  have hstart : Kept barrier [] start := ⟨[], rfl, rfl⟩
  have hkept : Kept barrier ops (Trace.final (step barrier) start ops) :=
    Trace.invariant hstart (fun _ _ h hc => h.snoc hc) hclear
  obtain ⟨taken, harrived, hsegments⟩ := hkept
  exact ⟨taken, harrived,
    { moved := Coalesce.total_eq hsegments _
      scrolled := Coalesce.total_eq hsegments _
      wheels := congrArg (List.map Prod.fst) (Coalesce.unfolded_eq hsegments)
      order := hsegments }⟩

end

/-! ### Three events -/

instance (sum : ℤ × ℤ) : Decidable (InRange sum) := inferInstanceAs (Decidable (_ ∧ _))

instance (next : List CapturedEvent) :
    Decidable (∀ l, l <+: next → InRange ((l.map item).map Prod.snd).sum) :=
  decidable_of_iff (∀ l ∈ next.inits, InRange ((l.map item).map Prod.snd).sum)
    (forall_congr' fun _ => by rw [List.mem_inits])

instance (barrier : DriveBarrier) (m : List MotionOp) : (op : MotionOp) →
    Decidable (Clear barrier m op)
  | .arrive _ => .isTrue trivial
  | .turn => inferInstanceAs (Decidable (_ ∧ _ ∨ _))

def threeEvents : List MotionOp :=
  [.arrive ⟨.mouseMove 3 0, 5⟩, .arrive ⟨.mouseMove 4 1, 6⟩, .arrive ⟨.wheel ⟨0, 1⟩, 7⟩,
    .turn, .turn]

/-- Behind the barrier of an earlier event the moves are handed on as one, and the wheel after. -/
theorem behind_barrier_transparent : Trace.Each (Clear ⟨4, none⟩) threeEvents ∧
    handed ⟨4, none⟩ threeEvents = [⟨.mouseMove 7 1, 5⟩, ⟨.wheel ⟨0, 1⟩, 7⟩] ∧
    ∃ taken, arrived threeEvents = taken ++ (after ⟨4, none⟩ threeEvents).waiting ∧
      Alike (handed ⟨4, none⟩ threeEvents) (taken.filter (passes ⟨4, none⟩)) := by
  have hclear : Trace.Each (Clear ⟨4, none⟩) threeEvents := by decide
  exact ⟨hclear, by decide, folding_transparent ⟨4, none⟩ threeEvents hclear⟩

/-- A barrier between the two moves drops the second one too. -/
theorem straddled_move_is_lost :
    (arrived threeEvents).filter (passes ⟨5, none⟩) =
      [⟨.mouseMove 4 1, 6⟩, ⟨.wheel ⟨0, 1⟩, 7⟩] ∧
    (after ⟨5, none⟩ threeEvents).waiting = [] ∧
    handed ⟨5, none⟩ threeEvents = [⟨.wheel ⟨0, 1⟩, 7⟩] ∧
    ¬∃ taken, arrived threeEvents = taken ++ (after ⟨5, none⟩ threeEvents).waiting ∧
      Alike (handed ⟨5, none⟩ threeEvents) (taken.filter (passes ⟨5, none⟩)) := by
  have hnone : (after ⟨5, none⟩ threeEvents).waiting = [] := by decide
  refine ⟨by decide, hnone, by decide, ?_⟩
  rintro ⟨taken, harrived, halike⟩
  rw [hnone, List.append_nil] at harrived
  have hmoved := halike.moved
  rw [← harrived] at hmoved
  exact absurd hmoved (by decide)

end MotionArm

end TheKvm

import Mathlib.Data.Rat.Floor
import Mathlib.Tactic.Linarith
import TheKvm.Core.Event
import TheKvm.Lib.Pin
import TheKvm.Lib.Trace

/-!
The cage that keeps the hidden cursor of the X11 capture off the edges under a core grab.

The server queues a report for each move of the cursor, the device's and the cage's own. The cage
tells its own by the count of reports behind the warp, however many waited before it. Fractions are
exact here: no sum of the capture has more bits than a float holds.
-/

namespace TheKvm.RecenterCage

/-! ### The cage -/

abbrev Point := Int16 × Int16

def cageMarginPx : Int16 := 64

/-- `recenter_point_if_near_edge`. -/
def recenterPointIfNearEdge (last : Point) (dims : UInt16 × UInt16) (margin : Int16) :
    Option Point :=
  let width : ℤ := dims.1.toNat
  let height : ℤ := dims.2.toNat
  if last.1.toInt < margin.toInt ∨ last.2.toInt < margin.toInt ∨
      width - margin.toInt < last.1.toInt ∨ height - margin.toInt < last.2.toInt then
    some (Int16.ofInt (pin 0 32767 (width / 2)), Int16.ofInt (pin 0 32767 (height / 2)))
  else none

/-- `core_motion_step`. -/
def coreMotionStep (last current : Point) : Int32 × Int32 :=
  (current.1.toInt32 - last.1.toInt32, current.2.toInt32 - last.2.toInt32)

/-- `f64::trunc`. -/
def trunc (v : ℚ) : ℤ := if 0 ≤ v then ⌊v⌋ else ⌈v⌉

/-- `take_integer`: the remainder behind a value, and the whole part. -/
def takeInteger (remainder value : ℚ) : ℚ × Int32 :=
  let total := pin (-2147483647) 2147483647 (remainder + value)
  (total - trunc total, Int32.ofInt (trunc total))

/-- What the capture keeps for the cage and for the steps under a core grab. -/
structure Cage where
  coreLast : Option Point
  cageQuiet : ℕ
  motionX : ℚ
  motionY : ℚ
  screenDims : UInt16 × UInt16

/-- `maybe_recenter_cage`, and where it warps the cursor if the server lets it. -/
def Cage.maybeRecenterCage (c : Cage) (accepted : Bool) : Cage × Option Point :=
  match c.coreLast.bind fun last => recenterPointIfNearEdge last c.screenDims cageMarginPx with
  | none => (c, none)
  | some point => if accepted then ({ c with cageQuiet := 3 }, some point) else (c, none)

/-- `translate`, of a `MotionNotify` under the grab. -/
def Cage.translate (c : Cage) (root : Point) : Cage × Option InputEvent :=
  if 0 < c.cageQuiet then
    ({ c with coreLast := some root, cageQuiet := c.cageQuiet - 1 }, none)
  else
    match c.coreLast with
    | none => ({ c with coreLast := some root }, none)
    | some last =>
      let d := coreMotionStep last root
      let x := takeInteger c.motionX d.1.toInt
      let y := takeInteger c.motionY d.2.toInt
      ({ c with coreLast := some root, motionX := x.1, motionY := y.1 },
        if x.2 ≠ 0 ∨ y.2 ≠ 0 then some (.mouseMove x.2 y.2) else none)

/-! ### The cursor and its reports -/

/-- A report of where the cursor is, with how far the device moved it or that the cage did. -/
structure Motion where
  root : Point
  moved : Int32 × Int32
  warped : Bool
  deriving DecidableEq

/-- The capture, the cursor and the reports that wait, with how many were swallowed since the
last warp. -/
structure World where
  cage : Cage
  cursor : Point
  queue : List Motion
  swallowed : ℕ

/-- The device moves the cursor, or the loop of `next_event` gets to the cage or to the poll. -/
inductive Op
  | move (root : Point)
  | recenter (accepted : Bool)
  | poll

namespace World

/-- The server reports a warp that moves the cursor. -/
def recenter (w : World) (accepted : Bool) : World :=
  match w.cage.maybeRecenterCage accepted with
  | (cage, none) => { w with cage }
  | (cage, some point) =>
    { cage
      cursor := point
      queue := w.queue ++ if point = w.cursor then [] else [⟨point, (0, 0), true⟩]
      swallowed := 0 }

def poll (w : World) : World × Option InputEvent :=
  match w.queue with
  | [] => (w, none)
  | report :: rest =>
    let (cage, event) := w.cage.translate report.root
    ({ w with
        cage
        queue := rest
        swallowed := if 0 < w.cage.cageQuiet then w.swallowed + 1 else w.swallowed }, event)

def step (w : World) : Op → World × Option InputEvent
  | .move root =>
    ({ w with
        cursor := root
        queue := w.queue ++ [⟨root, coreMotionStep w.cursor root, false⟩] }, none)
  | .recenter accepted => (w.recenter accepted, none)
  | .poll => w.poll

/-- What is put out is a move of the device, as far as the device moved the cursor between this
report and the one before. -/
def Faithful (w : World) (op : Op) : Prop :=
  ∀ event ∈ (w.step op).2, ∃ report ∈ w.queue.head?,
    report.warped = false ∧ event = .mouseMove report.moved.1 report.moved.2

/-- No warp of the cage is reported behind the reports that it swallows, and no fraction from
before the grab lies against a step. -/
def Clean (w : World) : Op → Prop
  | .poll =>
    ∀ report ∈ w.queue.head?, ∀ last ∈ w.cage.coreLast, w.cage.cageQuiet = 0 →
      report.warped = false ∧
        0 ≤ w.cage.motionX * (coreMotionStep last report.root).1.toInt ∧
        0 ≤ w.cage.motionY * (coreMotionStep last report.root).2.toInt
  | _ => True

/-- Where the cage warps the cursor, at most two reports wait. -/
def Short (w : World) : Op → Prop
  | .recenter accepted => (w.cage.maybeRecenterCage accepted).2.isSome → w.queue.length ≤ 2
  | _ => True

instance (w : World) (op : Op) : Decidable (w.Faithful op) :=
  inferInstanceAs (Decidable (∀ _ ∈ _, _))

instance (w : World) (op : Op) : Decidable (w.Short op) := by
  cases op <;> unfold Short <;> infer_instance

end World

/-- A core grab that was just engaged. The count of the last warp and the fractions of the raw
motion are those from before. -/
structure CoreGrab where
  screenDims : UInt16 × UInt16
  cursor : Point
  cageQuiet : ℕ
  motionX : ℚ
  motionY : ℚ
  quiet_le : cageQuiet ≤ 3
  x_lt : |motionX| < 1
  y_lt : |motionY| < 1

namespace CoreGrab

def start (g : CoreGrab) : World where
  cage := ⟨none, g.cageQuiet, g.motionX, g.motionY, g.screenDims⟩
  cursor := g.cursor
  queue := []
  swallowed := 3 - g.cageQuiet

/-- The world behind some steps under the grab. -/
abbrev after (g : CoreGrab) (ops : List Op) : World := Trace.final World.step g.start ops

end CoreGrab

/-! ### Steps and fractions -/

lemma toInt_step_one (last current : Point) :
    (coreMotionStep last current).1.toInt = current.1.toInt - last.1.toInt := by
  have hlast := last.1.le_toInt
  have hlast' := last.1.toInt_lt
  have hcurrent := current.1.le_toInt
  have hcurrent' := current.1.toInt_lt
  rw [coreMotionStep, Int32.toInt_sub, Int16.toInt_toInt32, Int16.toInt_toInt32]
  exact Int.bmod_eq_of_le (by omega) (by omega)

lemma toInt_step_two (last current : Point) :
    (coreMotionStep last current).2.toInt = current.2.toInt - last.2.toInt :=
  toInt_step_one last.swap current.swap

lemma eq_of_step_eq_zero {last current : Point} (hx : (coreMotionStep last current).1 = 0)
    (hy : (coreMotionStep last current).2 = 0) : current = last := by
  have hone := toInt_step_one last current
  have htwo := toInt_step_two last current
  rw [hx, Int32.toInt_zero] at hone
  rw [hy, Int32.toInt_zero] at htwo
  exact Prod.ext (Int16.toInt_inj.mp (by omega)) (Int16.toInt_inj.mp (by omega))

lemma abs_toInt_step_le (last current : Point) :
    |((coreMotionStep last current).1.toInt : ℚ)| ≤ 65535 ∧
      |((coreMotionStep last current).2.toInt : ℚ)| ≤ 65535 := by
  rw [toInt_step_one, toInt_step_two]
  have hbound : ∀ a b : Int16, |((a.toInt - b.toInt : ℤ) : ℚ)| ≤ 65535 := by
    intro a b
    have ha := a.le_toInt
    have ha' := a.toInt_lt
    have hb := b.le_toInt
    have hb' := b.toInt_lt
    rw [← Int.cast_abs]
    exact_mod_cast abs_le.mpr ⟨by omega, by omega⟩
  exact ⟨hbound _ _, hbound _ _⟩

lemma abs_sub_trunc_lt (v : ℚ) : |v - trunc v| < 1 := by
  unfold trunc
  split_ifs
  · have hle := Int.floor_le v
    have hlt := Int.lt_floor_add_one v
    rw [abs_lt]
    constructor <;> linarith
  · have hle := Int.le_ceil v
    have hlt := Int.ceil_lt_add_one v
    rw [abs_lt]
    constructor <;> linarith

/-- A fraction on the side of a whole number does not change it. -/
lemma trunc_add {r : ℚ} {n : ℤ} (hr : |r| < 1) (h : 0 ≤ r * n) : trunc (r + n) = n := by
  obtain ⟨hlow, hhigh⟩ := abs_lt.mp hr
  have hfloor : 0 ≤ r → ⌊r + n⌋ = n := by
    intro hnonneg
    rw [Int.floor_add_intCast, Int.floor_eq_zero_iff.mpr ⟨hnonneg, hhigh⟩, zero_add]
  have hceil : r ≤ 0 → ⌈r + n⌉ = n := by
    intro hnonpos
    rw [Int.ceil_add_intCast, Int.ceil_eq_zero_iff.mpr ⟨hlow, hnonpos⟩, zero_add]
  unfold trunc
  rcases lt_trichotomy n 0 with hneg | rfl | hpos
  · have hn : (n : ℚ) ≤ -1 := by exact_mod_cast Int.le_sub_one_of_lt hneg
    rw [if_neg (by linarith)]
    exact hceil (by nlinarith)
  · split_ifs with hsign
    · exact hfloor (by simpa using hsign)
    · exact hceil (by simpa using (not_le.mp hsign).le)
  · have hn : (1 : ℚ) ≤ n := by exact_mod_cast hpos
    rw [if_pos (by linarith)]
    exact hfloor (by nlinarith)

lemma takeInteger_eq {r : ℚ} {d : Int32} (hr : |r| < 1) (hd : |(d.toInt : ℚ)| ≤ 65535)
    (h : 0 ≤ r * d.toInt) : takeInteger r d.toInt = (r, d) := by
  obtain ⟨hlow, hhigh⟩ := abs_lt.mp hr
  obtain ⟨hdlow, hdhigh⟩ := abs_le.mp hd
  rw [takeInteger, pin.of_mem (by linarith) (by linarith), trunc_add hr h, add_sub_cancel_right,
    Int32.ofInt_toInt]

lemma abs_takeInteger_lt (r v : ℚ) : |(takeInteger r v).1| < 1 := abs_sub_trunc_lt _

/-! ### The cage and the poll -/

variable {c : Cage} {root last p : Point} {w : World} {op : Op} {accepted : Bool}

lemma maybeRecenterCage_cases (c : Cage) (accepted : Bool) :
    c.maybeRecenterCage accepted = (c, none) ∨
      ∃ point, c.maybeRecenterCage accepted = ({ c with cageQuiet := 3 }, some point) := by
  unfold Cage.maybeRecenterCage
  split
  · exact Or.inl rfl
  · split_ifs
    · exact Or.inr ⟨_, rfl⟩
    · exact Or.inl rfl

lemma translate_coreLast (c : Cage) (root : Point) : (c.translate root).1.coreLast = some root := by
  unfold Cage.translate
  split_ifs
  · rfl
  · split <;> rfl

lemma translate_quiet (h : 0 < c.cageQuiet) :
    c.translate root = ({ c with coreLast := some root, cageQuiet := c.cageQuiet - 1 }, none) :=
  if_pos h

lemma translate_anchor (hquiet : c.cageQuiet = 0) (h : c.coreLast = none) :
    c.translate root = ({ c with coreLast := some root }, none) := by
  rw [Cage.translate, if_neg (by omega), h]

/-- A report behind another one, that no fraction lies against. -/
lemma translate_step (root : Point) (hx : |c.motionX| < 1) (hy : |c.motionY| < 1)
    (hquiet : c.cageQuiet = 0) (h : c.coreLast = some last)
    (hx' : 0 ≤ c.motionX * (coreMotionStep last root).1.toInt)
    (hy' : 0 ≤ c.motionY * (coreMotionStep last root).2.toInt) :
    c.translate root = ({ c with coreLast := some root },
      if (coreMotionStep last root).1 ≠ 0 ∨ (coreMotionStep last root).2 ≠ 0 then
        some (.mouseMove (coreMotionStep last root).1 (coreMotionStep last root).2)
      else none) := by
  obtain ⟨hone, htwo⟩ := abs_toInt_step_le last root
  rw [Cage.translate, if_neg (by omega), h]
  dsimp only
  rw [takeInteger_eq hx hone hx', takeInteger_eq hy htwo hy']

lemma translate_cageQuiet (c : Cage) (root : Point) :
    (c.translate root).1.cageQuiet = c.cageQuiet - 1 := by
  unfold Cage.translate
  split_ifs with hquiet
  · rfl
  · split
    · dsimp only
      omega
    · dsimp only
      omega

lemma translate_fractions (root : Point) (hx : |c.motionX| < 1) (hy : |c.motionY| < 1) :
    |(c.translate root).1.motionX| < 1 ∧ |(c.translate root).1.motionY| < 1 := by
  unfold Cage.translate
  split_ifs
  · exact ⟨hx, hy⟩
  · split
    · exact ⟨hx, hy⟩
    · exact ⟨abs_takeInteger_lt _ _, abs_takeInteger_lt _ _⟩

/-! ### The reports that wait -/

/-- The report fits the place of the one before it. -/
def Motion.Follows (report : Motion) (p : Point) : Prop :=
  if report.warped then report.root ≠ p else report.moved = coreMotionStep p report.root

/-- From the last report read to the cursor each report follows the one before it. -/
def Chained : Option Point → List Motion → Point → Prop
  | last, [], cursor => ∀ p ∈ last, p = cursor
  | last, report :: rest, cursor =>
    (∀ p ∈ last, report.Follows p) ∧ Chained (some report.root) rest cursor

variable {report : Motion} {queue : List Motion} {cursor : Point} {before : Option Point}

lemma Chained.snoc (h : Chained before queue cursor) (hreport : report.Follows cursor) :
    Chained before (queue ++ [report]) report.root := by
  induction queue generalizing before with
  | nil => exact ⟨fun p hp => h p hp ▸ hreport, fun p hp => (Option.mem_some_iff.mp hp).symm⟩
  | cons first rest ih => exact ⟨h.1, ih h.2⟩

/-- What holds of the world in every state of a grab. -/
structure Tracks (w : World) : Prop where
  chained : Chained w.cage.coreLast w.queue w.cursor
  x_lt : |w.cage.motionX| < 1
  y_lt : |w.cage.motionY| < 1
  swallowed_le : w.cage.cageQuiet + w.swallowed ≤ 3

lemma recenter_cases (w : World) (accepted : Bool) :
    w.recenter accepted = w ∨
      ∃ point, (w.cage.maybeRecenterCage accepted).2 = some point ∧
        w.recenter accepted =
          { cage := { w.cage with cageQuiet := 3 }
            cursor := point
            queue := w.queue ++ if point = w.cursor then [] else [⟨point, (0, 0), true⟩]
            swallowed := 0 } := by
  unfold World.recenter
  rcases maybeRecenterCage_cases w.cage accepted with h | ⟨point, h⟩
  · left
    rw [h]
  · right
    exact ⟨point, by rw [h], by rw [h]⟩

lemma Tracks.recenter (h : Tracks w) : Tracks (w.recenter accepted) := by
  rcases recenter_cases w accepted with heq | ⟨point, -, heq⟩
  · rwa [heq]
  · rw [heq]
    refine ⟨?_, h.x_lt, h.y_lt, le_refl 3⟩
    dsimp only
    split_ifs with hpoint
    · rw [hpoint, List.append_nil]
      exact h.chained
    · refine h.chained.snoc ?_
      rw [Motion.Follows, if_pos rfl]
      exact hpoint

lemma Tracks.poll (h : Tracks w) : Tracks w.poll.1 := by
  unfold World.poll
  split
  · exact h
  · rename_i report rest hqueue
    have hchained := h.chained
    rw [hqueue] at hchained
    obtain ⟨hx, hy⟩ := translate_fractions report.root h.x_lt h.y_lt
    refine ⟨?_, hx, hy, ?_⟩
    · dsimp only
      rw [translate_coreLast]
      exact hchained.2
    · have hle := h.swallowed_le
      dsimp only
      rw [translate_cageQuiet]
      split_ifs <;> omega

lemma Tracks.step (h : Tracks w) (op : Op) : Tracks (w.step op).1 := by
  cases op with
  | move root =>
    refine ⟨h.chained.snoc ?_, h.x_lt, h.y_lt, h.swallowed_le⟩
    rw [Motion.Follows, if_neg Bool.false_ne_true]
  | recenter accepted => exact h.recenter
  | poll => exact h.poll

/-- The place of the report that is read, and what the capture puts out for it. -/
lemma poll_eq (hqueue : report ∈ w.queue.head?) :
    w.poll.2 = (w.cage.translate report.root).2 := by
  obtain ⟨rest, hrest⟩ := List.head?_eq_some_iff.mp hqueue
  unfold World.poll
  rw [hrest]

lemma Tracks.follows (h : Tracks w) (hqueue : report ∈ w.queue.head?)
    (hlast : last ∈ w.cage.coreLast) : report.Follows last := by
  obtain ⟨rest, hrest⟩ := List.head?_eq_some_iff.mp hqueue
  have hchained := h.chained
  rw [hrest] at hchained
  exact hchained.1 last hlast

/-- In a state of a grab a clean step puts out what the device moved. -/
lemma Tracks.faithful (h : Tracks w) (hclean : w.Clean op) : w.Faithful op := by
  intro event hevent
  cases op with
  | move root => cases hevent
  | recenter accepted => cases hevent
  | poll =>
    rcases hqueue : w.queue.head? with _ | report
    · rw [World.step, World.poll, List.head?_eq_none_iff.mp hqueue] at hevent
      cases hevent
    · have hevent : event ∈ (w.cage.translate report.root).2 := poll_eq hqueue ▸ hevent
      rcases Nat.eq_zero_or_pos w.cage.cageQuiet with hquiet | hquiet
      · rcases hlast : w.cage.coreLast with _ | last
        · rw [translate_anchor hquiet hlast] at hevent
          cases hevent
        · obtain ⟨hwarped, hx, hy⟩ := hclean report hqueue last hlast hquiet
          rw [translate_step report.root h.x_lt h.y_lt hquiet hlast hx hy] at hevent
          have hfollows := h.follows hqueue hlast
          rw [Motion.Follows, hwarped, if_neg Bool.false_ne_true] at hfollows
          refine ⟨report, rfl, hwarped, ?_⟩
          rw [hfollows]
          dsimp only at hevent
          split_ifs at hevent
          · exact (Option.mem_some_iff.mp hevent).symm
          · cases hevent
      · rw [translate_quiet hquiet] at hevent
        cases hevent

/-! ### No fraction from before the grab -/

def Whole (w : World) : Prop := w.cage.motionX = 0 ∧ w.cage.motionY = 0

lemma Whole.step (h : Whole w) (op : Op) : Whole (w.step op).1 := by
  obtain ⟨hx, hy⟩ := h
  cases op with
  | move root => exact ⟨hx, hy⟩
  | recenter accepted =>
    rcases recenter_cases w accepted with heq | ⟨point, -, heq⟩
    · rw [World.step, heq]
      exact ⟨hx, hy⟩
    · rw [World.step, heq]
      exact ⟨hx, hy⟩
  | poll =>
    rw [World.step]
    unfold World.poll
    split
    · exact ⟨hx, hy⟩
    · rename_i report rest hqueue
      rcases Nat.eq_zero_or_pos w.cage.cageQuiet with hquiet | hquiet
      · rcases hlast : w.cage.coreLast with _ | last
        · simp only [translate_anchor hquiet hlast]
          exact ⟨hx, hy⟩
        · simp only [translate_step report.root (by rw [hx]; norm_num) (by rw [hy]; norm_num) hquiet
            hlast (by rw [hx, zero_mul]) (by rw [hy, zero_mul])]
          exact ⟨hx, hy⟩
      · simp only [translate_quiet hquiet]
        exact ⟨hx, hy⟩

/-- Then a step that puts out what the device moved is clean. -/
lemma Tracks.clean (h : Tracks w) (hwhole : Whole w) (hfaithful : w.Faithful op) : w.Clean op := by
  obtain ⟨hx, hy⟩ := hwhole
  cases op with
  | move root => trivial
  | recenter accepted => trivial
  | poll =>
    intro report hqueue last hlast hquiet
    have hx' : 0 ≤ w.cage.motionX * (coreMotionStep last report.root).1.toInt := by
      rw [hx, zero_mul]
    have hy' : 0 ≤ w.cage.motionY * (coreMotionStep last report.root).2.toInt := by
      rw [hy, zero_mul]
    refine ⟨?_, hx', hy'⟩
    -- A warp that is read moved the cursor, so it would be put out.
    by_contra hwarped
    rw [Bool.not_eq_false] at hwarped
    have hfollows := h.follows hqueue hlast
    rw [Motion.Follows, if_pos hwarped] at hfollows
    have hmoves : (coreMotionStep last report.root).1 ≠ 0 ∨
        (coreMotionStep last report.root).2 ≠ 0 := by
      by_contra hnone
      rw [not_or, not_not, not_not] at hnone
      exact hfollows (eq_of_step_eq_zero hnone.1 hnone.2)
    have hevent : (w.step .poll).2 = some (.mouseMove (coreMotionStep last report.root).1
        (coreMotionStep last report.root).2) := by
      rw [World.step, poll_eq hqueue, translate_step report.root h.x_lt h.y_lt hquiet hlast hx' hy']
      exact if_pos hmoves
    obtain ⟨same, hsame, hphysical, -⟩ := hfaithful _ hevent
    rw [Option.mem_unique hsame hqueue, hwarped] at hphysical
    cases hphysical

/-! ### Runs under a grab -/

lemma tracks_start (g : CoreGrab) : Tracks g.start := by
  refine ⟨fun p hp => ?_, g.x_lt, g.y_lt, ?_⟩
  · cases hp
  · have hle := g.quiet_le
    change g.cageQuiet + (3 - g.cageQuiet) ≤ 3
    omega

lemma tracks_after (g : CoreGrab) (ops : List Op) : Tracks (g.after ops) :=
  Trace.always (I := fun _ => Tracks) (tracks_start g) fun _ op h => h.step op

lemma whole_after {g : CoreGrab} (h : Whole g.start) (ops : List Op) : Whole (g.after ops) :=
  Trace.always (I := fun _ => Whole) h fun _ op h => h.step op

/-! ### Few reports in flight -/

/-- The warps among the reports are read before the count is used up. -/
def Within : ℕ → List Motion → Prop
  | _, [] => True
  | quiet, report :: rest => (report.warped = true → 0 < quiet) ∧ Within (quiet - 1) rest

variable {quiet more : ℕ}

lemma Within.mono (h : Within quiet queue) (hle : quiet ≤ more) : Within more queue := by
  induction queue generalizing quiet more with
  | nil => trivial
  | cons first rest ih =>
    exact ⟨fun hwarped => (h.1 hwarped).trans_le hle, ih h.2 (Nat.sub_le_sub_right hle 1)⟩

lemma Within.snoc (h : Within quiet queue)
    (hreport : report.warped = true → queue.length < quiet) : Within quiet (queue ++ [report]) := by
  induction queue generalizing quiet with
  | nil => exact ⟨hreport, trivial⟩
  | cons first rest ih =>
    refine ⟨h.1, ih h.2 fun hwarped => ?_⟩
    have hlt := hreport hwarped
    rw [List.length_cons] at hlt
    omega

lemma within_step (h : Within w.cage.cageQuiet w.queue) (hquiet : w.cage.cageQuiet ≤ 3)
    (hshort : w.Short op) : Within (w.step op).1.cage.cageQuiet (w.step op).1.queue := by
  cases op with
  | move root => exact h.snoc fun hwarped => Bool.noConfusion hwarped
  | recenter accepted =>
    rw [World.step]
    rcases recenter_cases w accepted with heq | ⟨point, hpoint, heq⟩
    · rwa [heq]
    · have hlength := hshort (by rw [hpoint]; rfl)
      rw [heq]
      dsimp only
      split_ifs
      · rw [List.append_nil]
        exact h.mono hquiet
      · exact (h.mono hquiet).snoc fun _ => by omega
  | poll =>
    rw [World.step]
    unfold World.poll
    split
    · exact h
    · rename_i report rest hqueue
      rw [hqueue] at h
      dsimp only
      rw [translate_cageQuiet]
      exact h.2

/-- With at most two reports in flight at each warp, and no fraction from before, all steps are
clean. -/
theorem clean_of_short {g : CoreGrab} {ops : List Op} (hwhole : Whole g.start)
    (hshort : Trace.Each (fun m op => (g.after m).Short op) ops) :
    Trace.Each (fun m op => (g.after m).Clean op) ops := by
  intro m op hm
  have hwithin : Within (g.after m).cage.cageQuiet (g.after m).queue := by
    refine Trace.invariant (I := fun _ (w : World) => Tracks w ∧ Within w.cage.cageQuiet w.queue)
      ⟨tracks_start g, trivial⟩ (fun m op h hop => ?_) (hshort.earlier hm) |>.2
    have hle := h.1.swallowed_le
    exact ⟨h.1.step op, within_step h.2 (by omega) hop⟩
  obtain ⟨hx, hy⟩ := whole_after hwhole m
  cases op with
  | move root => trivial
  | recenter accepted => trivial
  | poll =>
    intro report hqueue last _ hquiet
    obtain ⟨rest, hrest⟩ := List.head?_eq_some_iff.mp hqueue
    rw [hrest, hquiet] at hwithin
    refine ⟨?_, by rw [hx, zero_mul], by rw [hy, zero_mul]⟩
    by_contra hwarped
    exact absurd (hwithin.1 (Bool.not_eq_false _ ▸ hwarped)) (lt_irrefl 0)

/-! ### What is put out -/

/-- Of each warp at most three reports are swallowed, and a run whose steps are clean puts out what
the device moved. Where no fraction is left from before the grab these are the only runs that do. -/
theorem cage_never_flings (g : CoreGrab) (ops : List Op) :
    (Trace.Each (fun m op => (g.after m).Clean op) ops →
      Trace.Each (fun m op => (g.after m).Faithful op) ops) ∧
    (Whole g.start → Trace.Each (fun m op => (g.after m).Faithful op) ops →
      Trace.Each (fun m op => (g.after m).Clean op) ops) ∧
    Trace.Each (fun m op => ((g.after m).step op).1.swallowed ≤ 3) ops := by
  refine ⟨fun hclean m op hm => ?_, fun hwhole hfaithful m op hm => ?_, fun m op _ => ?_⟩
  · exact (tracks_after g m).faithful (hclean m op hm)
  · exact (tracks_after g m).clean (whole_after hwhole m) (hfaithful m op hm)
  · have hle := ((tracks_after g m).step op).swallowed_le
    omega

/-- A screen with the cursor in the middle. -/
def testGrab : CoreGrab where
  screenDims := (1536, 864)
  cursor := (800, 400)
  cageQuiet := 0
  motionX := 0
  motionY := 0
  quiet_le := Nat.zero_le 3
  x_lt := by norm_num
  y_lt := by norm_num

/-- The cursor goes to the left edge and is warped back, with nothing else in the queue. -/
def edgeVisit : List Op :=
  [.move (10, 400), .poll, .recenter true, .move (770, 432), .poll, .recenter true, .poll,
    .move (772, 432), .poll, .move (775, 433), .poll]

lemma whole_testGrab : Whole testGrab.start := ⟨by decide +kernel, by decide +kernel⟩

theorem edge_visit_test :
    Trace.Each (fun m op => (testGrab.after m).Faithful op) edgeVisit ∧
      Trace.Each (fun m op => (testGrab.after m).Clean op) edgeVisit :=
  ⟨(cage_never_flings testGrab edgeVisit).1 (clean_of_short whole_testGrab (by decide +kernel)),
    (cage_never_flings testGrab edgeVisit).2.1 whole_testGrab (by decide +kernel)⟩

/-- The cursor leaves the edge again before the cage sees it there. -/
def staleReports : List Op :=
  [.move (40, 400), .move (100, 400), .move (200, 400), .move (300, 400), .move (400, 400), .poll,
    .recenter true, .poll, .recenter true, .poll, .recenter true, .poll, .recenter true, .poll,
    .recenter true, .poll]

/-- Three reports from before the warp use up the count, and the warp itself is put out. -/
theorem stale_reports_fling :
    ¬∀ (g : CoreGrab) (ops : List Op),
      Trace.Each (fun m op => (g.after m).Faithful op) ops ∧
        Trace.Each (fun m op => ((g.after m).step op).1.swallowed ≤ 3) ops := by
  intro h
  exact absurd (h testGrab staleReports).1 (by decide +kernel)

end TheKvm.RecenterCage

import TheKvm.Lib.Bank
import TheKvm.Platform.PinchTap

/-!
What a gesture zooms is what the fingers spread.

The history of the frames says which spread a gesture is measured from and which steps count. The
accumulator keeps what is less than a unit, and holds the whole sum only within 64 bits.
-/

namespace TheKvm.PinchTap

abbrev Frame := List Contact

/-! ### Frames and the ones before them -/

/-- The contacts move together more than apart from one frame to the next. -/
def Dominated (a b c d : Contact) : Prop :=
  let midStep := |(midOf c d).1 - (midOf a b).1| + |(midOf c d).2 - (midOf a b).2|
  scrollNoiseFloor ≤ midStep ∧ |spreadOf c d - spreadOf a b| * scrollDominance < midStep

instance (a b c d : Contact) : Decidable (Dominated a b c d) :=
  inferInstanceAs (Decidable (_ ∧ _))

/-- The spread at the touch-down or, if that is later, at the last frame that scrolling
dominated. The last frame comes first. -/
def reference : List Frame → Option ℤ
  | [] => none
  | f :: before =>
    match f, before.headD [] with
    | [c, d], [a, b] => if Dominated a b c d then some (spreadOf c d) else reference before
    | [c, d], _ => some (spreadOf c d)
    | _, _ => none

/-- How far the fingers moved apart, unless the frame is one that scrolling dominates. -/
def spreadStep : Frame → Frame → ℤ
  | [a, b], [c, d] => if Dominated a b c d then 0 else spreadOf c d - spreadOf a b
  | _, _ => 0

/-- The sum of the spread steps of the frames that come behind `last`. -/
def spreadSteps (last : Frame) : List Frame → ℤ
  | [] => 0
  | f :: l => spreadStep last f + spreadSteps f l

lemma spreadSteps_snoc (last : Frame) (l : List Frame) (f : Frame) :
    spreadSteps last (l ++ [f]) = spreadSteps last l + spreadStep (l.getLastD last) f := by
  induction l generalizing last with
  | nil => rw [List.nil_append, spreadSteps, spreadSteps, spreadSteps, add_comm]; rfl
  | cons g l ih =>
    rw [List.cons_append, spreadSteps, ih, spreadSteps, add_assoc, List.getLastD_cons]

/-! ### A run from the reset state -/

def PinchState.reset (units : ℤ) : PinchState := ⟨none, none, none, 0, units, false, 0⟩

/-- The units of a device are those of a sensor whose width has 32 bits. -/
lemma start_units (span : Int32) :
    1 ≤ (TapDevice.start span).pinch.unitsPerDetent ∧
      (TapDevice.start span).pinch.unitsPerDetent < 2 ^ 31 := by
  have hspan := Int32.toInt_bounds span
  have hpos : (0 : ℤ) ≤ max span.toInt 1 := by omega
  simp only [TapDevice.start, detentsPerSpan]
  rw [Int.tdiv_eq_ediv_of_nonneg hpos]
  omega

/-- The gesture machine behind some frames. -/
abbrev fed (units : ℤ) (l : List Frame) : PinchState :=
  Trace.final PinchState.feed (.reset units) l

/-- A stretch of frames behind each of which a gesture is engaged, from its engagement on. -/
structure Episode (units : ℤ) (m e : List Frame) : Prop where
  before : (fed units m).engaged = false
  during : ∀ k, k <+: e → k ≠ [] → (fed units (m ++ k)).engaged = true

/-- The whole units that a frame brings the sum to. -/
def PinchState.detents (s : PinchState) : Frame → ℤ
  | [a, b] =>
    (wrapI64 (s.acc + (spreadOf a b - s.prev.getD (spreadOf a b)))).tdiv (max s.unitsPerDetent 1)
  | _ => 0

/-- What the frame zooms is cut off at a thousand detents. -/
def PinchState.Clamped (s : PinchState) : Frame → Prop
  | [a, b] => ¬s.Scrolls a b ∧ 1000 < |s.detents [a, b]|
  | _ => False

/-- What each frame of the episode zooms, and whether it reports an end. -/
abbrev shown (units : ℤ) (m e : List Frame) : List (Int32 × Bool) :=
  Trace.outputs PinchState.feed (fed units m) e

/-- Gestures engage, zoom and end as they should. -/
structure Disciplined (units : ℤ) : Prop where
  gate : ∀ l f, (fed units l).engaged = false → (fed units (l ++ [f])).engaged = true →
    ∃ a b r, f = [a, b] ∧ reference (l ++ [f]).reverse = some r ∧
      pinchEngageUnits ≤ |spreadOf a b - r|
  idle : ∀ l f, ((fed units l).feed f).2.1 ≠ 0 → (fed units (l ++ [f])).engaged = true
  ended : ∀ l f, ((fed units l).feed f).2.2 = true ↔
    (fed units l).engaged = true ∧ (fed units (l ++ [f])).engaged = false
  once : ∀ m e f, Episode units m e → e ≠ [] → (fed units (m ++ e ++ [f])).engaged = false →
    (shown units m (e ++ [f])).map (·.2) = List.replicate e.length false ++ [true]
  left : ∀ l, |(fed units l).acc| < units

/-- What an episode zooms and the accumulator are the steps of the fingers. -/
def Conserved (units : ℤ) : Prop :=
  ∀ m e, Episode units m e →
    Trace.Each (fun k f => ¬(fed units (m ++ k)).Clamped f) e →
    units * ((shown units m e).map fun o => o.1.toInt / 120).sum + (fed units (m ++ e)).acc =
      spreadSteps (m.getLastD []) e

/-! ### What a frame does -/

/-- The state knows the spread and the middle of the last frame. -/
def PinchState.Remembers (s : PinchState) : Frame → Prop
  | [a, b] => s.anchor.isSome = true ∧ s.prev = some (spreadOf a b) ∧ s.prevMid = some (midOf a b)
  | _ => s.anchor = none ∧ s.engaged = false

variable {s : PinchState} {a b c d : Contact} {f last : Frame} {units r : ℤ}

lemma frame_cases (f : Frame) : (∃ a b, f = [a, b]) ∨ ∀ a b, f ≠ [a, b] := by
  rcases f with _ | ⟨a, _ | ⟨b, _ | ⟨c, l⟩⟩⟩
  · exact Or.inr fun a b h => by cases h
  · exact Or.inr fun a b h => by cases h
  · exact Or.inl ⟨a, b, rfl⟩
  · exact Or.inr fun a b h => by cases h

lemma remembers_other (h : ∀ a b, last ≠ [a, b]) :
    s.Remembers last ↔ s.anchor = none ∧ s.engaged = false := by
  unfold PinchState.Remembers
  split
  · exact absurd rfl (h _ _)
  · exact Iff.rfl

lemma feed_lift (h : ∀ a b, f ≠ [a, b]) :
    s.feed f =
      ({ s with
        anchor := none, prev := none, prevMid := none, acc := 0, engaged := false,
        scrollStreak := 0 }, 0, s.engaged) := by
  unfold PinchState.feed
  split
  · exact absurd rfl (h _ _)
  · rfl

lemma feed_down (h : s.anchor = none) :
    s.feed [c, d] =
      ({ s with anchor := some (spreadOf c d), prev := some (spreadOf c d),
                prevMid := some (midOf c d) }, 0, false) := by
  simp only [PinchState.feed, h]

lemma scrolls_iff (h : s.Remembers [a, b]) : s.Scrolls c d ↔ Dominated a b c d := by
  obtain ⟨-, hprev, hmid⟩ := h
  rw [PinchState.Scrolls, Dominated, hprev, hmid, Option.getD_some, Option.getD_some]

/-- A frame that scrolling dominates moves the anchor, and the fifth in a row ends the gesture. -/
lemma feed_scroll (h : s.Remembers [a, b]) (hd : Dominated a b c d) :
    s.feed [c, d] =
      if s.engaged = true ∧ takeoverFrames ≤ s.scrollStreak + 1 then
        ({ s with anchor := some (spreadOf c d), prev := some (spreadOf c d),
                  prevMid := some (midOf c d), acc := 0, engaged := false,
                  scrollStreak := 0 }, 0, true)
      else
        ({ s with anchor := some (spreadOf c d), prev := some (spreadOf c d),
                  prevMid := some (midOf c d), scrollStreak := s.scrollStreak + 1 }, 0, false) := by
  obtain ⟨r, hr⟩ := Option.isSome_iff_exists.mp h.1
  simp only [PinchState.feed, hr, if_pos ((scrolls_iff h).mpr hd)]

/-- Any other frame engages the gesture past the gate, and puts its step into the bank. -/
lemma feed_still (h : s.Remembers [a, b]) (hd : ¬Dominated a b c d) (hr : s.anchor = some r)
    (hunits : 1 ≤ s.unitsPerDetent) :
    s.feed [c, d] =
      if s.engaged = true ∨ pinchEngageUnits ≤ |spreadOf c d - r| then
        ({ s with prev := some (spreadOf c d), prevMid := some (midOf c d),
                  acc := (wrapI64 (s.acc + (spreadOf c d - spreadOf a b))).tmod s.unitsPerDetent,
                  engaged := true, scrollStreak := 0 },
          Int32.ofInt (max (-1000) (min (s.detents [c, d]) 1000) * 120), false)
      else
        ({ s with prev := some (spreadOf c d), prevMid := some (midOf c d), engaged := false,
                  scrollStreak := 0 }, 0, false) := by
  simp only [PinchState.feed, PinchState.detents, hr, if_neg (mt (scrolls_iff h).mp hd), h.2.1,
    Option.getD_some, max_eq_left hunits, Int.tmod_def, mul_comm]
  by_cases hengaged : s.engaged = true
  · simp [hengaged, ← hr]
  · by_cases hgate : pinchEngageUnits ≤ |spreadOf c d - r|
    · simp [hgate, ← hr]
    · simp [hgate, Bool.eq_false_iff.mpr hengaged, ← hr]

/-! ### What the state knows of the frames so far -/

variable {l m e : List Frame}

lemma reference_snoc (l : List Frame) (f : Frame) :
    reference (l ++ [f]).reverse =
      match f, l.getLastD [] with
      | [c, d], [a, b] =>
        if Dominated a b c d then some (spreadOf c d) else reference l.reverse
      | [c, d], _ => some (spreadOf c d)
      | _, _ => none := by
  have hhead : l.reverse.headD [] = l.getLastD [] := by
    rw [List.headD_eq_head?_getD, List.head?_reverse, List.getLastD_eq_getLast?]
  rw [← hhead, List.reverse_append, List.reverse_singleton, List.singleton_append]
  rfl

lemma reference_lift (h : ∀ a b, f ≠ [a, b]) : reference (l ++ [f]).reverse = none := by
  rw [reference_snoc]
  split
  · exact absurd rfl (h _ _)
  · exact absurd rfl (h _ _)
  · rfl

lemma reference_down (h : ∀ a b, l.getLastD [] ≠ [a, b]) :
    reference (l ++ [[c, d]]).reverse = some (spreadOf c d) := by
  rw [reference_snoc]
  split
  · next hlast => exact absurd hlast (h _ _)
  · next heq _ => cases heq; rfl
  · next hnot _ => exact absurd rfl (hnot c d)

lemma reference_pair (h : l.getLastD [] = [a, b]) :
    reference (l ++ [[c, d]]).reverse =
      if Dominated a b c d then some (spreadOf c d) else reference l.reverse := by
  rw [reference_snoc, h]

structure Tracks (units : ℤ) (l : List Frame) (s : PinchState) : Prop where
  same : s.unitsPerDetent = units
  anchor : s.anchor = reference l.reverse
  last : s.Remembers (l.getLastD [])
  idle : s.engaged = false → s.acc = 0
  small : |s.acc| < units

lemma Tracks.step (hunits : 1 ≤ units) (h : Tracks units l s) (f : Frame) :
    Tracks units (l ++ [f]) (s.feed f).1 := by
  have hlast : (l ++ [f]).getLastD [] = f := List.getLastD_concat ..
  have hzero : |(0 : ℤ)| < units := by rw [abs_zero]; omega
  rcases frame_cases f with ⟨c, d, rfl⟩ | hf
  · rcases frame_cases (l.getLastD []) with ⟨a, b, hab⟩ | hnone
    · have hknown := h.last
      rw [hab] at hknown
      have hanchor := reference_pair (c := c) (d := d) hab
      by_cases hd : Dominated a b c d
      · rw [if_pos hd] at hanchor
        rw [feed_scroll hknown hd]
        split_ifs
        · exact ⟨h.same, hanchor.symm, by rw [hlast]; exact ⟨rfl, rfl, rfl⟩, fun _ => rfl, hzero⟩
        · exact ⟨h.same, hanchor.symm, by rw [hlast]; exact ⟨rfl, rfl, rfl⟩, h.idle, h.small⟩
      · rw [if_neg hd] at hanchor
        obtain ⟨r, hr⟩ := Option.isSome_iff_exists.mp hknown.1
        rw [feed_still hknown hd hr (by rw [h.same]; exact hunits)]
        split_ifs with hengages
        · refine ⟨h.same, h.anchor.trans hanchor.symm, ?_, fun hc => Bool.noConfusion hc, ?_⟩
          · rw [hlast]
            exact ⟨hknown.1, rfl, rfl⟩
          · rw [h.same]
            exact Bank.abs_tmod_lt (by omega) _
        · refine ⟨h.same, h.anchor.trans hanchor.symm, ?_, fun _ => h.idle ?_, h.small⟩
          · rw [hlast]
            exact ⟨hknown.1, rfl, rfl⟩
          · exact Bool.eq_false_iff.mpr fun hc => hengages (Or.inl hc)
    · obtain ⟨hanchor, hidle⟩ := (remembers_other hnone).mp h.last
      rw [feed_down hanchor]
      refine ⟨h.same, (reference_down hnone).symm, ?_, h.idle, h.small⟩
      rw [hlast]
      exact ⟨rfl, rfl, rfl⟩
  · rw [feed_lift hf]
    refine ⟨h.same, (reference_lift hf).symm, ?_, fun _ => rfl, hzero⟩
    rw [hlast, remembers_other hf]
    exact ⟨rfl, rfl⟩

lemma tracks_fed (hunits : 1 ≤ units) (l : List Frame) : Tracks units l (fed units l) := by
  refine Trace.always (I := fun l s => Tracks units l s) ?_ fun m f h => h.step hunits f
  exact ⟨rfl, rfl, ⟨rfl, rfl⟩, fun _ => rfl, by rw [PinchState.reset, abs_zero]; omega⟩

/-! ### Engaging, zooming and ending -/

/-- Only a frame that scrolling does not dominate engages a gesture. -/
lemma Tracks.gate (hunits : 1 ≤ units) (h : Tracks units l s) (hbefore : s.engaged = false)
    (hafter : (s.feed f).1.engaged = true) :
    ∃ a b r, f = [a, b] ∧ reference (l ++ [f]).reverse = some r ∧
      pinchEngageUnits ≤ |spreadOf a b - r| := by
  rcases frame_cases f with ⟨c, d, rfl⟩ | hf
  · rcases frame_cases (l.getLastD []) with ⟨a, b, hab⟩ | hnone
    · have hknown := h.last
      rw [hab] at hknown
      by_cases hd : Dominated a b c d
      · rw [feed_scroll hknown hd, if_neg (by simp [hbefore])] at hafter
        exact absurd (hbefore.symm.trans hafter) (by decide)
      · obtain ⟨r, hr⟩ := Option.isSome_iff_exists.mp hknown.1
        rw [feed_still hknown hd hr (by rw [h.same]; exact hunits)] at hafter
        split_ifs at hafter with hengages
        · refine ⟨c, d, r, rfl, ?_, hengages.resolve_left (by simp [hbefore])⟩
          rw [reference_pair hab, if_neg hd, ← h.anchor, hr]
    · rw [feed_down ((remembers_other hnone).mp h.last).1] at hafter
      exact absurd (hbefore.symm.trans hafter) (by decide)
  · rw [feed_lift hf] at hafter
    cases hafter

lemma fed_snoc (units : ℤ) (l : List Frame) (f : Frame) :
    fed units (l ++ [f]) = ((fed units l).feed f).1 := Trace.final_snoc _ _ _ _

/-- A frame reports an end exactly if the gesture was engaged before it and is not behind it. -/
lemma ended_iff : (s.feed f).2.2 = true ↔ s.engaged = true ∧ (s.feed f).1.engaged = false := by
  rw [feed_ended]
  obtain ⟨hends, hstays, -⟩ := @feed_engaged s f
  constructor
  · exact fun h => ⟨h.1, (hends h).1⟩
  · rintro ⟨hbefore, hafter⟩
    by_contra hnot
    exact absurd (hafter.symm.trans (hstays hnot hbefore)) (by decide)

lemma Episode.earlier (h : Episode units m (e ++ [f])) : Episode units m e :=
  ⟨h.before, fun k hk => h.during k (hk.trans (List.prefix_append _ _))⟩

lemma Episode.engaged (h : Episode units m (e ++ [f])) :
    (fed units (m ++ e ++ [f])).engaged = true := by
  rw [List.append_assoc]
  exact h.during _ List.prefix_rfl (by simp)

/-- An episode goes on while the frames keep it engaged. -/
lemma Episode.snoc (h : Episode units m e) (hf : (fed units (m ++ e ++ [f])).engaged = true) :
    Episode units m (e ++ [f]) := by
  refine ⟨h.before, fun k hk hne => ?_⟩
  rcases List.prefix_concat_iff.mp hk with rfl | hk
  · rwa [← List.append_assoc]
  · exact h.during k hk hne

lemma fed_append (units : ℤ) (m e : List Frame) :
    Trace.final PinchState.feed (fed units m) e = fed units (m ++ e) :=
  (Trace.final_append _ _ _ _).symm

lemma shown_snoc (units : ℤ) (m e : List Frame) (f : Frame) :
    shown units m (e ++ [f]) = shown units m e ++ [((fed units (m ++ e)).feed f).2] := by
  rw [shown, Trace.outputs_snoc, fed_append]

/-- While an episode lasts, no end is reported. -/
lemma Episode.no_end (h : Episode units m e) :
    (shown units m e).map (·.2) = List.replicate e.length false := by
  induction e using List.reverseRecOn with
  | nil => rfl
  | append_singleton e f ih =>
    have hopen : ((fed units (m ++ e)).feed f).2.2 = false := by
      refine Bool.eq_false_iff.mpr fun hended => ?_
      have hstops := (ended_iff.mp hended).2
      rw [← fed_snoc] at hstops
      exact absurd (hstops.symm.trans h.engaged) (by decide)
    rw [shown_snoc, List.map_append, ih h.earlier, List.map_singleton, hopen,
      List.length_append, List.length_singleton, List.replicate_succ']

lemma disciplined (hunits : 1 ≤ units) : Disciplined units where
  gate l f hbefore hafter := by
    rw [fed_snoc] at hafter
    exact (tracks_fed hunits l).gate hunits hbefore hafter
  idle l f hzoom := by
    rw [fed_snoc]
    exact feed_engaged.2.2 hzoom
  ended l f := by
    rw [fed_snoc]
    exact ended_iff
  once m e f h hne hstops := by
    have hengaged : (fed units (m ++ e)).engaged = true := h.during e List.prefix_rfl hne
    rw [fed_snoc] at hstops
    rw [shown_snoc, List.map_append, h.no_end, List.map_singleton,
      ended_iff.mpr ⟨hengaged, hstops⟩]
  left l := (tracks_fed hunits l).small

/-! ### The sum of an episode -/

lemma spreadStep_bounds (a b c d : Contact) : |spreadOf c d - spreadOf a b| < 2 ^ 33 := by
  have hbefore := spreadOf_bounds a b
  have hafter := spreadOf_bounds c d
  exact abs_lt.mpr ⟨by omega, by omega⟩

/-- A frame that keeps the gesture engaged moves its step into the zoom and the accumulator. -/
lemma Tracks.step_sum (hunits : 1 ≤ units) (hfits : units ≤ 2 ^ 63 - 2 ^ 33) (h : Tracks units l s)
    (hafter : (s.feed f).1.engaged = true) (hclamped : ¬s.Clamped f) :
    units * ((s.feed f).2.1.toInt / 120) + (s.feed f).1.acc =
      s.acc + spreadStep (l.getLastD []) f := by
  rcases frame_cases f with ⟨c, d, rfl⟩ | hf
  · rcases frame_cases (l.getLastD []) with ⟨a, b, hab⟩ | hnone
    · have hknown := h.last
      rw [hab] at hknown ⊢
      by_cases hd : Dominated a b c d
      · rw [spreadStep, if_pos hd]
        rw [feed_scroll hknown hd] at hafter ⊢
        split_ifs at hafter ⊢
        simp
      · obtain ⟨r, hr⟩ := Option.isSome_iff_exists.mp hknown.1
        have hstill := feed_still hknown hd hr (by rw [h.same]; exact hunits)
        rw [spreadStep, if_neg hd]
        rw [hstill] at hafter ⊢
        split_ifs at hafter ⊢ with hengages
        -- The sum has 64 bits, and its quotient is not cut off.
        have hsum : wrapI64 (s.acc + (spreadOf c d - spreadOf a b)) =
            s.acc + (spreadOf c d - spreadOf a b) := by
          have hstep := abs_lt.mp (spreadStep_bounds a b c d)
          have hacc := abs_lt.mp h.small
          exact wrapI64_eq ⟨by omega, by omega⟩
        have hdetents : s.detents [c, d] = (s.acc + (spreadOf c d - spreadOf a b)).tdiv units := by
          rw [PinchState.detents, hknown.2.1, Option.getD_some, hsum, h.same, max_eq_left hunits]
        have hfew : |s.detents [c, d]| ≤ 1000 := by
          by_contra hmany
          exact hclamped ⟨mt (scrolls_iff hknown).mp hd, not_le.mp hmany⟩
        have hzoom : (Int32.ofInt (max (-1000) (min (s.detents [c, d]) 1000) * 120)).toInt =
            s.detents [c, d] * 120 := by
          have hrange := abs_le.mp hfew
          rw [Int32.toInt_ofInt_of_le (by omega) (by omega), min_eq_left hrange.2,
            max_eq_right hrange.1]
        simp only [hzoom, hsum, h.same]
        rw [Int.mul_ediv_cancel _ (by decide), hdetents, add_comm]
        exact Int.tmod_add_mul_tdiv _ _
    · obtain ⟨hanchor, hidle⟩ := (remembers_other hnone).mp h.last
      rw [feed_down hanchor] at hafter
      exact absurd (hidle.symm.trans hafter) (by decide)
  · rw [feed_lift hf] at hafter
    cases hafter

lemma last_append (m e : List Frame) : (m ++ e).getLastD [] = e.getLastD (m.getLastD []) := by
  induction e using List.reverseRecOn with
  | nil => rw [List.append_nil, List.getLastD_nil]
  | append_singleton e f => rw [← List.append_assoc, List.getLastD_concat, List.getLastD_concat]

lemma conserved (hunits : 1 ≤ units) (hfits : units ≤ 2 ^ 63 - 2 ^ 33) : Conserved units := by
  intro m e h hclamped
  induction e using List.reverseRecOn with
  | nil =>
    rw [List.append_nil, (tracks_fed hunits m).idle h.before]
    simp [spreadSteps]
  | append_singleton e f ih =>
    obtain ⟨hearlier, hlast⟩ := Trace.each_snoc.mp hclamped
    have hsum := ih h.earlier hearlier
    have hengaged := h.engaged
    rw [fed_snoc] at hengaged
    have hstep := (tracks_fed hunits (m ++ e)).step_sum hunits hfits hengaged hlast
    rw [last_append] at hstep
    rw [shown_snoc, List.map_append, List.sum_append, List.map_singleton, List.sum_singleton,
      spreadSteps_snoc, ← hsum, ← List.append_assoc, fed_snoc, mul_add, add_assoc, hstep, add_assoc]

/-- **Pinch accounting.** A gesture engages past the gate only, zooms only while it is engaged and
ends once. What it zooms and the accumulator are the steps of the fingers, for units that leave
the accumulator room for a step within 64 bits. -/
theorem pinch_accounted {units : ℤ} (hunits : 1 ≤ units) :
    Disciplined units ∧ (units ≤ 2 ^ 63 - 2 ^ 33 → Conserved units) :=
  ⟨disciplined hunits, conserved hunits⟩

/-- Fingers that touch down a hundred apart and spread by two hundred. -/
theorem pinch_accounted_test :
    Disciplined 10 ∧
      10 * ((shown 10 [[(0, 0), (100, 0)]] [[(0, 0), (300, 0)]]).map fun o => o.1.toInt / 120).sum +
        (fed 10 [[(0, 0), (100, 0)], [(0, 0), (300, 0)]]).acc = 200 := by
  obtain ⟨hdisciplined, hconserved⟩ := pinch_accounted (by decide : (1 : ℤ) ≤ 10)
  have hbegins : Episode 10 [[(0, 0), (100, 0)]] [] :=
    ⟨by decide, fun k hk hne => absurd (List.prefix_nil.mp hk) hne⟩
  refine ⟨hdisciplined, ?_⟩
  refine (hconserved (by decide) _ _ (hbegins.snoc (f := [(0, 0), (300, 0)]) (by decide)) ?_).trans
    (by decide)
  refine Trace.each_snoc.mpr ⟨Trace.each_nil, fun h => absurd h.2 (by decide)⟩

/-- The units of every device leave that room. -/
theorem device_accounted (span : Int32) :
    ∃ units, (TapDevice.start span).pinch = .reset units ∧ Disciplined units ∧ Conserved units := by
  obtain ⟨hpos, hsmall⟩ := start_units span
  have hfits : (TapDevice.start span).pinch.unitsPerDetent ≤ 2 ^ 63 - 2 ^ 33 := by
    calc _ ≤ 2 ^ 31 := hsmall.le
      _ ≤ _ := by decide
  exact ⟨(TapDevice.start span).pinch.unitsPerDetent, rfl, disciplined hpos, conserved hpos hfits⟩

/-! ### Units without room for a step -/

def huge : ℤ := 2 ^ 63 - 1

def shut : Frame := [(0, 0), (0, 0)]
def apart : Frame := [(0, 0), (2 ^ 29, 0)]
def moved : Frame := [(2 ^ 30, 0), (2 ^ 30 + 2 ^ 29, 0)]

/-- The fingers spread where they are, and are shut again while the hand moves there and back. -/
def swings : ℕ → List Frame
  | 0 => []
  | n + 1 => swings n ++ [apart] ++ [moved] ++ [shut]

/-- The state with the last contacts `a` and `b`, in a gesture measured from `r`. -/
def placed (r : ℤ) (a b : Contact) (acc : ℤ) (engaged : Bool) (streak : UInt32) : PinchState :=
  ⟨some r, some (spreadOf a b), some (midOf a b), acc, huge, engaged, streak⟩

section

variable {acc : ℤ} {engaged : Bool} {streak : UInt32}

lemma placed_scroll (hd : Dominated a b c d) (hstreak : ¬takeoverFrames ≤ streak + 1) :
    ((placed r a b acc engaged streak).feed [c, d]).1 =
      placed (spreadOf c d) c d acc engaged (streak + 1) := by
  rw [feed_scroll (s := placed r a b acc engaged streak) ⟨rfl, rfl, rfl⟩ hd,
    if_neg (fun h => hstreak h.2)]
  rfl

lemma placed_still (hd : ¬Dominated a b c d) (hgate : pinchEngageUnits ≤ |spreadOf c d - r|) :
    ((placed r a b acc engaged streak).feed [c, d]).1 =
      placed r c d ((wrapI64 (acc + (spreadOf c d - spreadOf a b))).tmod huge) true 0 := by
  rw [feed_still (s := placed r a b acc engaged streak) ⟨rfl, rfl, rfl⟩ hd rfl
    (show (1 : ℤ) ≤ 2 ^ 63 - 1 by decide), if_pos (Or.inr hgate)]
  rfl

lemma placed_apart :
    ((placed 0 (0, 0) (0, 0) acc engaged streak).feed apart).1 =
      placed 0 (0, 0) (2 ^ 29, 0) ((wrapI64 (acc + 2 ^ 29)).tmod huge) true 0 :=
  placed_still (by decide) (by decide)

lemma placed_moved :
    ((placed 0 (0, 0) (2 ^ 29, 0) acc true 0).feed moved).1 =
      placed (2 ^ 29) (2 ^ 30, 0) (2 ^ 30 + 2 ^ 29, 0) acc true 1 :=
  placed_scroll (by decide) (by decide)

lemma placed_shut :
    ((placed (2 ^ 29) (2 ^ 30, 0) (2 ^ 30 + 2 ^ 29, 0) acc true 1).feed shut).1 =
      placed 0 (0, 0) (0, 0) acc true 2 :=
  placed_scroll (by decide) (by decide)

lemma placed_detents :
    (placed 0 (0, 0) (0, 0) acc engaged streak).detents apart =
      (wrapI64 (acc + 2 ^ 29)).tdiv huge := rfl

end

/-- An episode of swings that has put `acc` into the accumulator and nothing into the zoom. -/
structure Swings (l : List Frame) (acc : ℤ) : Prop where
  episode : Episode huge [shut] l
  state : ∃ engaged streak, fed huge ([shut] ++ l) = placed 0 (0, 0) (0, 0) acc engaged streak
  last : l.getLastD shut = shut
  unclamped : Trace.Each (fun k f => ¬(fed huge ([shut] ++ k)).Clamped f) l
  steps : spreadSteps shut l = acc

/-- One more swing, while the accumulator stays below a unit. -/
lemma Swings.next {acc : ℤ} (h : Swings l acc) (hpos : 0 ≤ acc) (hbelow : acc + 2 ^ 29 < huge) :
    Swings (l ++ [apart] ++ [moved] ++ [shut]) (acc + 2 ^ 29) := by
  obtain ⟨engaged, streak, hstate⟩ := h.state
  have hwrap : wrapI64 (acc + 2 ^ 29) = acc + 2 ^ 29 := by
    rw [huge] at hbelow
    exact wrapI64_eq ⟨by omega, by omega⟩
  have hapart : fed huge ([shut] ++ (l ++ [apart])) =
      placed 0 (0, 0) (2 ^ 29, 0) (acc + 2 ^ 29) true 0 := by
    rw [← List.append_assoc, fed_snoc, hstate, placed_apart, hwrap,
      Int.tmod_eq_of_lt (by omega) hbelow]
  have hmoved : fed huge ([shut] ++ (l ++ [apart] ++ [moved])) =
      placed (2 ^ 29) (2 ^ 30, 0) (2 ^ 30 + 2 ^ 29, 0) (acc + 2 ^ 29) true 1 := by
    rw [← List.append_assoc, fed_snoc, hapart, placed_moved]
  have hshut : fed huge ([shut] ++ (l ++ [apart] ++ [moved] ++ [shut])) =
      placed 0 (0, 0) (0, 0) (acc + 2 ^ 29) true 2 := by
    rw [← List.append_assoc, fed_snoc, hmoved, placed_shut]
  refine ⟨?_, ⟨true, 2, hshut⟩, List.getLastD_concat, ?_, ?_⟩
  · refine ((h.episode.snoc ?_).snoc ?_).snoc ?_
    · rw [List.append_assoc, hapart]; rfl
    · rw [List.append_assoc, hmoved]; rfl
    · rw [List.append_assoc, hshut]; rfl
  · refine Trace.each_snoc.mpr ⟨Trace.each_snoc.mpr ⟨Trace.each_snoc.mpr ⟨h.unclamped, ?_⟩, ?_⟩, ?_⟩
    · rintro ⟨-, hmany⟩
      have hnone : (fed huge ([shut] ++ l)).detents apart = 0 := by
        rw [hstate, placed_detents, hwrap, Int.tdiv_eq_zero_of_lt (by omega) hbelow]
      rw [← apart, hnone] at hmany
      exact absurd hmany (by decide)
    · rw [hapart]
      exact fun hc => hc.1 ((scrolls_iff ⟨rfl, rfl, rfl⟩).mpr (by decide))
    · rw [hmoved]
      exact fun hc => hc.1 ((scrolls_iff ⟨rfl, rfl, rfl⟩).mpr (by decide))
  · rw [spreadSteps_snoc, spreadSteps_snoc, spreadSteps_snoc, h.steps, h.last,
      List.getLastD_concat, List.getLastD_concat, add_assoc, add_assoc]
    exact congrArg (acc + ·) (by decide)

lemma swings_swing (n : ℕ) (hn : (n : ℤ) * 2 ^ 29 < huge) : Swings (swings n) (n * 2 ^ 29) := by
  induction n with
  | zero =>
    refine ⟨⟨by decide, fun k hk hne => absurd (List.prefix_nil.mp hk) hne⟩, ?_, rfl,
      Trace.each_nil, rfl⟩
    exact ⟨false, 0, by decide⟩
  | succ n ih =>
    have hsum : ((n + 1 : ℕ) : ℤ) * 2 ^ 29 = n * 2 ^ 29 + 2 ^ 29 := by push_cast; ring
    rw [hsum] at hn ⊢
    exact (ih (by omega)).next (by omega) hn

/-- With the largest units, the accumulator leaves the 64 bits before it reaches a unit. -/
theorem accumulator_wraps :
    ¬∀ units : ℤ, 1 ≤ units → units < 2 ^ 63 → Disciplined units ∧ Conserved units := by
  intro hall
  obtain ⟨n, hn⟩ : ∃ n : ℕ, (n : ℤ) = 2 ^ 34 - 1 := ⟨2 ^ 34 - 1, by norm_num⟩
  have h := swings_swing n (by rw [hn, huge]; norm_num)
  rw [hn] at h
  obtain ⟨engaged, streak, hstate⟩ := h.state
  have hlast : fed huge ([shut] ++ (swings n ++ [apart])) =
      placed 0 (0, 0) (2 ^ 29, 0) (-1) true 0 := by
    rw [← List.append_assoc, fed_snoc, hstate, placed_apart]
    exact congrArg (placed 0 (0, 0) (2 ^ 29, 0) · true 0) (by decide)
  have hepisode := h.episode.snoc (f := apart) (by rw [List.append_assoc, hlast]; rfl)
  have hsum := (hall huge (by decide) (by decide)).2 _ _ hepisode <| by
    refine Trace.each_snoc.mpr ⟨h.unclamped, ?_⟩
    rintro ⟨-, hmany⟩
    rw [← apart, hstate, placed_detents] at hmany
    exact absurd hmany (by decide)
  rw [hlast, spreadSteps_snoc, List.getLastD_cons, List.getLastD_nil, h.steps, h.last] at hsum
  have hstep : spreadStep shut apart = 2 ^ 29 := by decide
  rw [hstep] at hsum
  generalize (List.map (fun o : Int32 × Bool => o.1.toInt / 120) _).sum = zoom at hsum
  have hsum : (2 ^ 63 - 1) * zoom + -1 = (2 ^ 34 - 1) * 2 ^ 29 + 2 ^ 29 := hsum
  omega

end TheKvm.PinchTap

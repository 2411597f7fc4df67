import TheKvm.Core.Router
import TheKvm.Lib.Trace

/-!
The wheel of the Windows capture, which hears of a tick from the hook and from the raw input.

Of each channel the filter remembers the last report that got through, and takes a report of the
other channel for its copy by the axis, the direction and the time. A ledger beside it says which
report really is the copy of which.
-/

namespace TheKvm

/-! ### The filter -/

inductive WheelChannel
  | hook | raw
  deriving DecidableEq

structure WheelReport where
  channel : WheelChannel
  now : Instant
  x : Int32
  y : Int32

def WheelReport.delta (r : WheelReport) (isX : Bool) : Int32 := if isX then r.x else r.y

/-- The signs of a report, and when it got through. -/
structure WheelNote where
  now : Instant
  signX : ℤ
  signY : ℤ

def WheelNote.sign (n : WheelNote) (isX : Bool) : ℤ := if isX then n.signX else n.signY

structure WheelDedup where
  lastHook : Option WheelNote
  lastRaw : Option WheelNote
  lastOwn : Option Instant

namespace WheelDedup

def wheelEchoWindowMs : ℕ := 30
def wheelDedupWindowMs : ℕ := 20

/-- `as_millis` of `duration_since`. -/
def millisSince (now at_ : Instant) : ℕ := elapsed now at_ / Duration.fromMillis 1

/-- `signum`. -/
def sign (d : Int32) : ℤ := d.toInt.sign

def new : WheelDedup := ⟨none, none, none⟩

/-- `note_hook`: a tagged report is our own echo. -/
def noteHook (s : WheelDedup) (x y : Int32) (own : Bool) (now : Instant) : WheelDedup :=
  if own then { s with lastOwn := some now } else { s with lastHook := some ⟨now, sign x, sign y⟩ }

/-- `hook_reported` and `raw_reported`: the delta is the copy of what was noted. -/
def reported (last : Option WheelNote) (delta : Int32) (isX : Bool) (now : Instant) : Bool :=
  match last with
  | none => false
  | some n =>
    decide (delta ≠ 0 ∧ n.sign isX = sign delta ∧ millisSince now n.now ≤ wheelDedupWindowMs)

/-- The axes that are no copies of what was noted. -/
def surviving (last : Option WheelNote) (x y : Int32) (now : Instant) : Int32 × Int32 :=
  (if reported last x true now then 0 else x, if reported last y false now then 0 else y)

/-- What is noted of the axes that got through. -/
def noted (last : Option WheelNote) (out : Int32 × Int32) (now : Instant) : Option WheelNote :=
  if out.1 ≠ 0 ∨ out.2 ≠ 0 then some ⟨now, sign out.1, sign out.2⟩ else last

def filterHook (s : WheelDedup) (x y : Int32) (now : Instant) : WheelDedup × Int32 × Int32 :=
  let out := surviving s.lastRaw x y now
  ({ s with lastHook := noted s.lastHook out now }, out)

/-- `filter_raw`, which drops our own echo first. -/
def filterRaw (s : WheelDedup) (x y : Int32) (now : Instant) : WheelDedup × Int32 × Int32 :=
  if s.lastOwn.any fun own => millisSince now own ≤ wheelEchoWindowMs then (s, 0, 0)
  else
    let out := surviving s.lastHook x y now
    ({ s with lastRaw := noted s.lastRaw out now }, out)

/-- A report of either channel. -/
def step (s : WheelDedup) (r : WheelReport) : WheelDedup × Int32 × Int32 :=
  match r.channel with
  | .hook => s.filterHook r.x r.y r.now
  | .raw => s.filterRaw r.x r.y r.now

def last (s : WheelDedup) : WheelChannel → Option WheelNote
  | .hook => s.lastHook
  | .raw => s.lastRaw

end WheelDedup

def WheelChannel.other : WheelChannel → WheelChannel
  | .hook => .raw
  | .raw => .hook

/-! ### Which report is the copy of which -/

/-- The copy of a tick on one channel. -/
structure WheelCopy where
  now : Instant
  sign : ℤ
  passed : Bool
  deriving DecidableEq

/-- The ticks of one axis that one channel has reported ahead of the other. -/
structure WheelQueue where
  ahead : WheelChannel
  waiting : List WheelCopy

/-- A copy waits for the one on the other channel, or meets the first that waits for it. -/
def WheelQueue.arrive (q : WheelQueue) (channel : WheelChannel) (c : WheelCopy) :
    WheelQueue × Option WheelCopy :=
  match q.waiting with
  | [] => (⟨channel, [c]⟩, none)
  | first :: rest =>
    if q.ahead = channel then ({ q with waiting := q.waiting ++ [c] }, none)
    else ({ q with waiting := rest }, some first)

/-- The filter, with the ticks that wait on the horizontal axis and on the vertical one. -/
structure WheelLedger where
  dedup : WheelDedup
  queue : Bool → WheelQueue

namespace WheelLedger

open WheelDedup

def start : WheelLedger := ⟨.new, fun _ => ⟨.hook, []⟩⟩

/-- The axis of the report gets through: what the other channel let through last is no copy. -/
def Passes (d : WheelLedger) (r : WheelReport) (isX : Bool) : Prop :=
  r.delta isX ≠ 0 ∧ reported (d.dedup.last r.channel.other) (r.delta isX) isX r.now = false

instance (d : WheelLedger) (r : WheelReport) (isX : Bool) : Decidable (d.Passes r isX) :=
  inferInstanceAs (Decidable (_ ∧ _))

/-- The copy of a tick that the report brings on an axis. -/
def copy (d : WheelLedger) (r : WheelReport) (isX : Bool) : WheelCopy :=
  let out := (d.dedup.step r).2
  ⟨r.now, sign (r.delta isX), decide ((if isX then out.1 else out.2) ≠ 0)⟩

def arrives (d : WheelLedger) (r : WheelReport) (isX : Bool) : WheelQueue × Option WheelCopy :=
  if r.delta isX = 0 then (d.queue isX, none)
  else (d.queue isX).arrive r.channel (d.copy r isX)

/-- A report, and on each axis the two copies of a tick if it brings the second one. -/
def step (d : WheelLedger) (r : WheelReport) :
    WheelLedger × (Bool → Option (WheelCopy × WheelCopy)) :=
  (⟨(d.dedup.step r).1, fun isX => (d.arrives r isX).1⟩,
    fun isX => (d.arrives r isX).2.map fun first => (first, d.copy r isX))

/-- The ledger behind some reports. -/
abbrev after (l : List WheelReport) : WheelLedger := Trace.final step start l

/-- The second copy of a tick is like the first, and comes within the window. -/
def Dual (d : WheelLedger) (r : WheelReport) : Prop :=
  ∀ isX, ∀ copies ∈ (d.step r).2 isX,
    copies.1.sign = copies.2.sign ∧ millisSince copies.2.now copies.1.now ≤ wheelDedupWindowMs

/-- Exactly one of the two copies of a tick gets through. -/
def Once (d : WheelLedger) (r : WheelReport) : Prop :=
  ∀ isX, ∀ copies ∈ (d.step r).2 isX, copies.1.passed = !copies.2.passed

/-- A report that gets through takes the axis and the direction of a tick that waits for its copy
on the other channel if the tick got through itself, and only then. -/
def Clean (d : WheelLedger) (r : WheelReport) : Prop :=
  ∀ passing, d.Passes r passing → ∀ isX, (d.queue isX).ahead = r.channel →
    ∀ c ∈ (d.queue isX).waiting,
      (c.passed = true ↔ d.Passes r isX ∧ c.sign = sign (r.delta isX))

instance (d : WheelLedger) (r : WheelReport) : Decidable (d.Dual r) :=
  inferInstanceAs (Decidable (∀ _, _))

instance (d : WheelLedger) (r : WheelReport) : Decidable (d.Once r) :=
  inferInstanceAs (Decidable (∀ _, _))

instance (d : WheelLedger) (r : WheelReport) : Decidable (d.Clean r) :=
  inferInstanceAs (Decidable (∀ _, _))

end WheelLedger

/-- A run of a device that reports every tick on both channels, in the order of the clock. -/
structure WheelRun where
  reports : List WheelReport
  ordered : reports.Pairwise fun r s => r.now ≤ s.now
  dual : Trace.Each (fun m r => (WheelLedger.after m).Dual r) reports

/-! ### One report at the filter -/

namespace WheelDedup

lemma millisSince_mono {t t' at_ : Instant} (h : t ≤ t') : millisSince t at_ ≤ millisSince t' at_ :=
  Nat.div_le_div_right (Nat.sub_le_sub_right h _)

lemma millisSince_anti {t a b : Instant} (h : a ≤ b) : millisSince t b ≤ millisSince t a :=
  Nat.div_le_div_right (Nat.sub_le_sub_left h _)

lemma sign_eq_zero_iff {d : Int32} : sign d = 0 ↔ d = 0 := by
  rw [sign, Int.sign_eq_zero_iff_zero, ← Int32.toInt_zero, Int32.toInt_inj]

/-- Without an echo, either channel is filtered by the other and noted for it. -/
lemma step_eq {s : WheelDedup} {r : WheelReport} (h : s.lastOwn = none) :
    (s.step r).2 = surviving (s.last r.channel.other) r.x r.y r.now ∧
      (s.step r).1.last r.channel = noted (s.last r.channel) (s.step r).2 r.now ∧
      (s.step r).1.last r.channel.other = s.last r.channel.other ∧
      (s.step r).1.lastOwn = none := by
  unfold step
  rcases r.channel with _ | _
  · exact ⟨rfl, rfl, rfl, h⟩
  · simp only [filterRaw, h, Option.any_none]
    exact ⟨rfl, rfl, rfl, rfl⟩

/-- What we injected ourselves is not captured while its echo may come. -/
lemma own_echo_dropped (s : WheelDedup) (x y : Int32) {r : WheelReport} {own : Instant}
    (hraw : r.channel = .raw) (h : millisSince r.now own ≤ wheelEchoWindowMs) :
    (s.noteHook x y true own).step r = (s.noteHook x y true own, 0, 0) := by
  rw [step, hraw]
  exact if_pos (decide_eq_true h)

end WheelDedup

namespace WheelLedger

open WheelDedup

variable {d : WheelLedger} {r : WheelReport} {isX : Bool}

/-- What is left of an axis. -/
lemma out_eq (h : d.dedup.lastOwn = none) (isX : Bool) :
    (if isX then (d.dedup.step r).2.1 else (d.dedup.step r).2.2) =
      if d.Passes r isX then r.delta isX else 0 := by
  have hout : (if isX then (d.dedup.step r).2.1 else (d.dedup.step r).2.2) =
      if reported (d.dedup.last r.channel.other) (r.delta isX) isX r.now then 0
      else r.delta isX := by
    rw [(step_eq h).1]
    cases isX <;> rfl
  rw [hout]
  by_cases hdelta : r.delta isX = 0
  · rw [hdelta, ite_self, ite_self]
  · rcases hreported : reported (d.dedup.last r.channel.other) (r.delta isX) isX r.now
    · exact (if_pos (c := d.Passes r isX) ⟨hdelta, hreported⟩).symm
    · exact (if_neg fun hp : d.Passes r isX => Bool.noConfusion (hreported.symm.trans hp.2)).symm

lemma passed_iff (h : d.dedup.lastOwn = none) :
    (d.copy r isX).passed = true ↔ d.Passes r isX := by
  rw [copy, decide_eq_true_eq, out_eq h]
  by_cases hp : d.Passes r isX
  · simp [hp, hp.1]
  · simp [hp]

/-- Either the report is noted, with the axes that got through, or none got through. -/
lemma noted_cases (h : d.dedup.lastOwn = none) :
    (∃ n, (d.dedup.step r).1.last r.channel = some n ∧ n.now = r.now ∧
        (∃ isX, d.Passes r isX) ∧
        ∀ isX, n.sign isX = if d.Passes r isX then sign (r.delta isX) else 0) ∨
      (d.dedup.step r).1.last r.channel = d.dedup.last r.channel ∧ ∀ isX, ¬d.Passes r isX := by
  have hx := out_eq (r := r) h true
  have hy := out_eq (r := r) h false
  simp only [if_true, Bool.false_eq_true, if_false] at hx hy
  have hsign : ∀ isX, sign (if d.Passes r isX then r.delta isX else 0) =
      if d.Passes r isX then sign (r.delta isX) else 0 := by
    intro isX
    split_ifs
    · rfl
    · exact sign_eq_zero_iff.mpr rfl
  rw [(step_eq h).2.1, noted, hx, hy]
  by_cases hany : ∃ isX, d.Passes r isX
  · left
    refine ⟨_, if_pos ?_, rfl, hany, fun isX => ?_⟩
    · obtain ⟨isX, hp⟩ := hany
      cases isX
      · exact Or.inr (by rw [if_pos hp]; exact hp.1)
      · exact Or.inl (by rw [if_pos hp]; exact hp.1)
    · cases isX
      · exact hsign false
      · exact hsign true
  · right
    have hnone : ∀ isX, ¬d.Passes r isX := fun isX hp => hany ⟨isX, hp⟩
    refine ⟨if_neg ?_, hnone⟩
    rw [if_neg (hnone true), if_neg (hnone false)]
    simp

/-! ### What the filter remembers of the ticks that wait -/

/-- The note is out of the window. -/
def Past (n : WheelNote) (now : Instant) : Prop :=
  ∀ t, now ≤ t → wheelDedupWindowMs < millisSince t n.now

/-- A copy that waits got through, and the last note of its channel is like it; or it did not, and
no note of its channel will be taken for it. -/
structure Remembered (s : WheelDedup) (ahead : WheelChannel) (isX : Bool) (now : Instant)
    (c : WheelCopy) : Prop where
  before : c.now ≤ now
  moves : c.sign ≠ 0
  passed : c.passed = true → ∃ n, s.last ahead = some n ∧ c.now ≤ n.now ∧ n.sign isX = c.sign
  dropped : c.passed = false → ∀ n, s.last ahead = some n → n.sign isX = c.sign → Past n c.now

structure Sound (d : WheelLedger) (now : Instant) : Prop where
  quiet : d.dedup.lastOwn = none
  -- The two channels never both remember the same.
  apart : ∀ channel n m isX, d.dedup.last channel = some n → d.dedup.last channel.other = some m →
    n.sign isX = m.sign isX → n.sign isX ≠ 0 →
      ∀ t, now ≤ t → wheelDedupWindowMs < millisSince t n.now ∨
        wheelDedupWindowMs < millisSince t m.now
  waiting : ∀ isX, ∀ c ∈ (d.queue isX).waiting, Remembered d.dedup (d.queue isX).ahead isX now c

variable {now : Instant} {q : WheelQueue} {c first second : WheelCopy} {channel : WheelChannel}

lemma arrive_met (h : (q.arrive channel c).2 = some first) :
    first ∈ q.waiting ∧ q.ahead = channel.other := by
  rcases hwaiting : q.waiting with _ | ⟨front, rest⟩
  · simp [WheelQueue.arrive, hwaiting] at h
  · by_cases hahead : q.ahead = channel
    · simp [WheelQueue.arrive, hwaiting, hahead] at h
    · simp only [WheelQueue.arrive, hwaiting, if_neg hahead, Option.some.injEq] at h
      refine ⟨by rw [← h]; exact List.mem_cons_self, ?_⟩
      cases hq : q.ahead <;> cases channel <;> simp_all [WheelChannel.other]

lemma met_cases (h : (d.step r).2 isX = some (first, second)) :
    first ∈ (d.queue isX).waiting ∧ (d.queue isX).ahead = r.channel.other ∧ r.delta isX ≠ 0 ∧
      second = d.copy r isX := by
  simp only [step, arrives] at h
  split_ifs at h with hdelta
  · cases h
  · obtain ⟨c, hmet, hpair⟩ := Option.map_eq_some_iff.mp h
    cases hpair
    exact ⟨(arrive_met hmet).1, (arrive_met hmet).2, hdelta, rfl⟩

/-- The second copy of a tick is handled as the first one requires. -/
lemma Sound.once (h : Sound d now) (hnow : now ≤ r.now) (hdual : d.Dual r) : d.Once r := by
  rintro isX ⟨first, second⟩ hmet
  obtain ⟨hsign, hwindow⟩ := hdual isX (first, second) hmet
  obtain ⟨hmem, hahead, hdelta, rfl⟩ := met_cases hmet
  have hsign : first.sign = sign (r.delta isX) := hsign
  have hwindow : millisSince r.now first.now ≤ wheelDedupWindowMs := hwindow
  have hremembered := h.waiting isX first hmem
  rcases hpassed : first.passed with _ | _
  · have hpasses : d.Passes r isX := by
      refine ⟨hdelta, ?_⟩
      rw [← hahead]
      rcases hlast : d.dedup.last (d.queue isX).ahead with _ | n
      · rfl
      · by_contra hreported
        simp only [reported, Bool.not_eq_false, decide_eq_true_eq] at hreported
        obtain ⟨-, hsame, hnear⟩ := hreported
        have hpast := hremembered.dropped hpassed n hlast (hsame.trans hsign.symm) r.now
          (hremembered.before.trans hnow)
        omega
    rw [(passed_iff h.quiet).mpr hpasses]
    rfl
  · obtain ⟨n, hlast, hafter, hsame⟩ := hremembered.passed hpassed
    have hnot : ¬d.Passes r isX := by
      rintro ⟨-, hreported⟩
      rw [← hahead, hlast] at hreported
      simp only [reported, decide_eq_false_iff_not] at hreported
      exact hreported ⟨hdelta, hsame.trans hsign, (millisSince_anti hafter).trans hwindow⟩
    rw [Bool.eq_false_iff.mpr fun hp => hnot ((passed_iff h.quiet).mp hp)]
    rfl

/-! ### What a report keeps -/

/-- What gets through on one channel is not what the other one remembers. -/
lemma Sound.apart_step (h : Sound d now) (hnow : now ≤ r.now) {n m : WheelNote}
    (hn : (d.dedup.step r).1.last r.channel = some n)
    (hm : d.dedup.last r.channel.other = some m) (hsame : n.sign isX = m.sign isX)
    (hsign : n.sign isX ≠ 0) {t : Instant} (ht : r.now ≤ t) :
    wheelDedupWindowMs < millisSince t n.now ∨ wheelDedupWindowMs < millisSince t m.now := by
  rcases noted_cases (r := r) h.quiet with ⟨n', hn', -, -, hsigns⟩ | ⟨hkept, -⟩
  · obtain rfl := Option.some.inj (hn.symm.trans hn')
    have hpasses : d.Passes r isX := by
      by_contra hnot
      exact hsign ((hsigns isX).trans (if_neg hnot))
    have hreported := hpasses.2
    rw [hm] at hreported
    simp only [reported, decide_eq_false_iff_not, not_and, not_le] at hreported
    right
    refine (hreported hpasses.1 ?_).trans_le (millisSince_mono ht)
    rw [← hsame, hsigns isX, if_pos hpasses]
  · rw [hkept] at hn
    exact h.apart _ n m isX hn hm hsame hsign t (hnow.trans ht)

lemma other_other (channel : WheelChannel) : channel.other.other = channel := by
  cases channel <;> rfl

lemma channel_cases (a b : WheelChannel) : a = b ∨ a = b.other := by
  cases a <;> cases b <;> decide

/-- A copy that waits for this channel is remembered by the other one, as before. -/
lemma Remembered.other (h : Remembered d.dedup r.channel.other isX now c)
    (hquiet : d.dedup.lastOwn = none) (hnow : now ≤ r.now) :
    Remembered (d.dedup.step r).1 r.channel.other isX r.now c := by
  have hsame := (step_eq (r := r) hquiet).2.2.1
  refine ⟨h.before.trans hnow, h.moves, ?_, ?_⟩
  · rw [hsame]
    exact h.passed
  · rw [hsame]
    exact h.dropped

/-- A copy on this channel that waits for the other one, if the report is clean. -/
lemma Remembered.own (h : Remembered d.dedup r.channel isX now c)
    (hquiet : d.dedup.lastOwn = none) (hnow : now ≤ r.now)
    (hclean : ∀ passing, d.Passes r passing →
      (c.passed = true ↔ d.Passes r isX ∧ c.sign = sign (r.delta isX))) :
    Remembered (d.dedup.step r).1 r.channel isX r.now c := by
  rcases noted_cases (r := r) hquiet with ⟨n, hn, hat, ⟨passing, hpasses⟩, hsigns⟩ | ⟨hkept, -⟩
  · have hlike := hclean passing hpasses
    refine ⟨h.before.trans hnow, h.moves, fun hpassed => ?_, fun hdropped m hm hsame => ?_⟩
    · obtain ⟨hp, hsign⟩ := hlike.mp hpassed
      refine ⟨n, hn, ?_, ?_⟩
      · rw [hat]
        exact h.before.trans hnow
      · rw [hsigns isX, if_pos hp, hsign]
    · -- A note like it would be of a report like it.
      obtain rfl := Option.some.inj (hn.symm.trans hm)
      rw [hsigns isX] at hsame
      by_cases hp : d.Passes r isX
      · rw [if_pos hp] at hsame
        exact Bool.noConfusion (hdropped.symm.trans (hlike.mpr ⟨hp, hsame.symm⟩))
      · rw [if_neg hp] at hsame
        exact absurd hsame.symm h.moves
  · refine ⟨h.before.trans hnow, h.moves, ?_, ?_⟩
    · rw [hkept]
      exact h.passed
    · rw [hkept]
      exact h.dropped

/-- A copy that begins to wait. -/
lemma Sound.remembered_copy (h : Sound d now) (hnow : now ≤ r.now) (hdelta : r.delta isX ≠ 0) :
    Remembered (d.dedup.step r).1 r.channel isX r.now (d.copy r isX) := by
  have hsign : sign (r.delta isX) ≠ 0 := fun hzero => hdelta (sign_eq_zero_iff.mp hzero)
  refine ⟨le_refl _, hsign, fun hpassed => ?_, fun hdropped n hn hsame t ht => ?_⟩
  · have hpasses := (passed_iff h.quiet).mp hpassed
    rcases noted_cases (r := r) h.quiet with ⟨n, hn, hat, -, hsigns⟩ | ⟨-, hnone⟩
    · exact ⟨n, hn, hat.ge, (hsigns isX).trans (if_pos hpasses)⟩
    · exact absurd hpasses (hnone isX)
  · -- It was taken for the copy of what the other channel remembers.
    have hnot : ¬d.Passes r isX := fun hp =>
      Bool.noConfusion (hdropped.symm.trans ((passed_iff h.quiet).mpr hp))
    have hreported : reported (d.dedup.last r.channel.other) (r.delta isX) isX r.now = true := by
      by_contra hfalse
      exact hnot ⟨hdelta, Bool.eq_false_iff.mpr hfalse⟩
    rcases hlast : d.dedup.last r.channel.other with _ | m
    · rw [hlast] at hreported
      cases hreported
    · rw [hlast] at hreported
      simp only [reported, decide_eq_true_eq] at hreported
      have hsame : n.sign isX = sign (r.delta isX) := hsame
      rcases h.apart_step hnow hn hlast (hsame.trans hreported.2.1.symm) (hsame ▸ hsign)
        (le_refl r.now) with hpast | hpast
      · exact hpast.trans_le (millisSince_mono ht)
      · exact absurd hreported.2.2 (not_le.mpr hpast)

lemma Sound.step (h : Sound d now) (hnow : now ≤ r.now) (hclean : d.Clean r) :
    Sound (d.step r).1 r.now := by
  refine ⟨(step_eq h.quiet).2.2.2, fun channel n m isX hn hm hsame hsign t ht => ?_,
    fun isX c hc => ?_⟩
  · have hother := (step_eq (r := r) h.quiet).2.2.1
    rcases channel_cases channel r.channel with rfl | rfl
    · exact h.apart_step hnow hn (hother.symm.trans hm) hsame hsign ht
    · rw [other_other] at hm
      exact (h.apart_step hnow hm (hother.symm.trans hn) hsame.symm (hsame ▸ hsign) ht).symm
  · have hold : ∀ c ∈ (d.queue isX).waiting,
        Remembered (d.dedup.step r).1 (d.queue isX).ahead isX r.now c := by
      intro c hc
      have hremembered := h.waiting isX c hc
      rcases channel_cases (d.queue isX).ahead r.channel with hahead | hahead
      · rw [hahead] at hremembered ⊢
        exact hremembered.own h.quiet hnow fun passing hp => hclean passing hp isX hahead c hc
      · rw [hahead] at hremembered ⊢
        exact hremembered.other h.quiet hnow
    change c ∈ (d.arrives r isX).1.waiting at hc
    change Remembered (d.dedup.step r).1 (d.arrives r isX).1.ahead isX r.now c
    unfold arrives at hc ⊢
    split_ifs at hc ⊢ with hdelta
    · exact hold c hc
    · have hcopy := h.remembered_copy hnow hdelta
      unfold WheelQueue.arrive at hc ⊢
      rcases hwaiting : (d.queue isX).waiting with _ | ⟨first, rest⟩
      · simp only [hwaiting, List.mem_singleton] at hc ⊢
        exact hc ▸ hcopy
      · simp only [hwaiting] at hc ⊢
        split_ifs at hc ⊢ with hahead
        · rcases List.mem_append.mp hc with hc | hc
          · exact hold c (hwaiting ▸ hc)
          · rw [List.mem_singleton.mp hc]
            dsimp only
            rw [hahead]
            exact hcopy
        · exact hold c (hwaiting ▸ List.mem_cons_of_mem first hc)

/-! ### Runs -/

lemma sound_start : Sound start 0 := by
  refine ⟨rfl, fun channel n m isX hn => ?_, fun isX c hc => ?_⟩
  · cases channel <;> cases hn
  · cases hc

/-- What is true now is true at whatever time the reports have all come. -/
lemma sound_after {l : List WheelReport} (hordered : l.Pairwise fun r s => r.now ≤ s.now)
    (hclean : Trace.Each (fun m r => (after m).Clean r) l) :
    ∃ now, Sound (after l) now ∧ ∀ t, (∀ r ∈ l, r.now ≤ t) → now ≤ t := by
  induction l using List.reverseRecOn with
  | nil => exact ⟨0, sound_start, fun t _ => Nat.zero_le t⟩
  | append_singleton l r ih =>
    obtain ⟨hl, hr⟩ := Trace.each_snoc.mp hclean
    obtain ⟨hordered, -, hlast⟩ := List.pairwise_append.mp hordered
    obtain ⟨now, hsound, hnow⟩ := ih hordered hl
    rw [after, Trace.final_snoc]
    refine ⟨r.now, hsound.step (hnow r.now fun s hs => hlast s hs r List.mem_cons_self) hr, ?_⟩
    exact fun t ht => ht r (List.mem_append_right l List.mem_cons_self)

end WheelLedger

namespace WheelDedup

/-- On one channel there is nothing to take a report for. -/
lemma outputs_single {channel : WheelChannel} {s : WheelDedup} {l : List WheelReport}
    (hown : s.lastOwn = none) (hother : s.last channel.other = none)
    (h : ∀ r ∈ l, r.channel = channel) :
    Trace.outputs step s l = l.map fun r => (r.x, r.y) := by
  induction l generalizing s with
  | nil => rfl
  | cons r l ih =>
    obtain ⟨rfl, hl⟩ := List.forall_mem_cons.mp h
    obtain ⟨hout, -, hkept, hquiet⟩ := step_eq (r := r) hown
    rw [Trace.outputs, List.map_cons, ih hquiet (hkept.trans hother) hl, hout, hother]
    rfl

end WheelDedup

/-! ### Every tick once -/

open WheelLedger in
/-- Of a device that reports every tick twice one copy of each gets through, if on either channel
no tick takes the place of another that waits; a device that reports it once loses none. -/
theorem ticks_forwarded_once (run : WheelRun) (channel : WheelChannel) (l : List WheelReport) :
    (Trace.Each (fun m r => (after m).Clean r) run.reports →
      Trace.Each (fun m r => (after m).Once r) run.reports) ∧
    ((∀ r ∈ l, r.channel = channel) →
      Trace.outputs WheelDedup.step .new l = l.map fun r => (r.x, r.y)) := by
  constructor
  · intro hclean m r hm
    have hordered := run.ordered.sublist hm.sublist
    obtain ⟨hbefore, -, hlast⟩ := List.pairwise_append.mp hordered
    obtain ⟨now, hsound, hnow⟩ := sound_after hbefore (hclean.earlier hm)
    have htime := hnow r.now fun s hs => hlast s hs r List.mem_cons_self
    exact hsound.once htime (run.dual m r hm)
  · intro h
    refine WheelDedup.outputs_single rfl ?_ h
    cases channel <;> rfl

/-- A tick down behind a tick up, which the raw input reports first. -/
def wheelTest : WheelRun where
  reports :=
    [⟨.hook, 0, 0, 120⟩, ⟨.raw, 5000000, 0, 120⟩, ⟨.raw, 30000000, 0, -120⟩,
      ⟨.hook, 35000000, 0, -120⟩]
  ordered := by decide
  dual := by decide +kernel

/-- Two ticks that only the raw input reports. -/
def rawTest : List WheelReport := [⟨.raw, 0, 120, -1⟩, ⟨.raw, 1000000, 120, 1⟩]

theorem wheel_test :
    Trace.Each (fun m r => (WheelLedger.after m).Once r) wheelTest.reports ∧
      Trace.outputs WheelDedup.step .new rawTest = [(120, -1), (120, 1)] :=
  ⟨(ticks_forwarded_once wheelTest .raw rawTest).1 (by decide +kernel),
    (ticks_forwarded_once wheelTest .raw rawTest).2 (by decide)⟩

/-- A tick up and one down, both from the hook and then both from the raw input. -/
def reversal : WheelRun where
  reports :=
    [⟨.hook, 0, 0, 120⟩, ⟨.hook, 5000000, 0, -120⟩, ⟨.raw, 10000000, 0, 120⟩,
      ⟨.raw, 15000000, 0, -120⟩]
  ordered := by decide
  dual := by decide +kernel

/-- The hook remembers the tick down alone, and the tick up is forwarded twice. -/
theorem reversal_forwarded_twice :
    ¬((∀ run : WheelRun, Trace.Each (fun m r => (WheelLedger.after m).Once r) run.reports) ∧
      ∀ (channel : WheelChannel) (l : List WheelReport), (∀ r ∈ l, r.channel = channel) →
        Trace.outputs WheelDedup.step .new l = l.map fun r => (r.x, r.y)) := by
  rintro ⟨h, -⟩
  exact absurd (h reversal) (by decide +kernel)

end TheKvm

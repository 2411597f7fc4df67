import Mathlib.Data.Rat.Floor
import Mathlib.Tactic.Linarith
import TheKvm.Core.Router
import TheKvm.Lib.Pin
import TheKvm.Lib.Trace
import TheKvm.Platform.Injector

/-!
The virtual touchscreen that a receiver renders pinch gestures with.

A device that was just created puts no contacts down for a while. The deltas of that time are meant
to be taken up by the gesture, which starts over with each of them instead. Pixels are exact here.
-/

namespace TheKvm

/-! ### The device -/

def mtIdMax : ℕ := 65535
def touchSettle : Duration := Duration.fromMillis 700

/-- Silence after which the end of the gesture is taken to be lost. -/
def touchStale : Duration := Duration.fromMillis 2000

def touchSeparation (current : ℚ) (delta : Int32) : ℚ :=
  let step : ℚ := pin (-6) 6 ((delta.toInt : ℚ) * (14 / 1000))
  pin 40 700 (current + step)

/-- `f64::round`. -/
def roundPx (v : ℚ) : ℤ := if 0 ≤ v then ⌊v + 1 / 2⌋ else -⌊-v + 1 / 2⌋

def touchContacts (center : ℤ × ℤ) (separation : ℚ) (bounds : ℤ × ℤ) : (ℤ × ℤ) × (ℤ × ℤ) :=
  let half := roundPx (separation / 2)
  let clamp (value limit : ℤ) := pin 0 (max limit 0) value
  ((clamp (center.1 - half) bounds.1, clamp center.2 bounds.2),
    (clamp (center.1 + half) bounds.1, clamp center.2 bounds.2))

/-- Both contacts down, with the gesture they are of. -/
structure TouchFrame where
  center : ℤ × ℤ
  separation : ℚ
  ids : ℕ × ℕ
  contacts : (ℤ × ℤ) × (ℤ × ℤ)
  deriving DecidableEq

inductive TouchReport
  | contacts (frame : TouchFrame)
  | lift
  deriving DecidableEq

structure UinputTouch where
  bounds : ℤ × ℤ
  down : Bool
  center : ℤ × ℤ
  separation : ℚ
  ids : ℕ × ℕ
  nextId : ℕ
  lastUpdate : Option Instant
  createdAt : Instant

/-- One pinch delta, when it comes and where the cursor is. -/
structure PinchCall where
  now : Instant
  anchor : ℤ × ℤ
  delta : Int32

namespace UinputTouch

/-- `create`, done at `createdAt`. -/
def create (width height : ℕ) (createdAt : Instant) : UinputTouch :=
  let width := max width 2
  let height := max height 2
  { bounds := (width - 1, height - 1), down := false, center := (width / 2, height / 2),
    separation := 120, ids := (1, 2), nextId := 3, lastUpdate := none, createdAt }

def lift (t : UinputTouch) : UinputTouch × List TouchReport :=
  if t.down then ({ t with down := false, lastUpdate := none }, [.lift]) else (t, [])

/-- The last frame is so long ago that its gesture is taken to be over. -/
def Stale (t : UinputTouch) (now : Instant) : Prop :=
  t.down = true ∧ t.lastUpdate.any (fun since => touchStale < elapsed now since) = true

instance (t : UinputTouch) (now : Instant) : Decidable (t.Stale now) :=
  inferInstanceAs (Decidable (_ ∧ _))

/-- The gesture a delta belongs to: the one under way, or a fresh one while no contacts are
down. -/
def begun (t : UinputTouch) (anchor : ℤ × ℤ) : UinputTouch :=
  if t.down then t
  else
    { t with
      center := anchor, separation := 120, ids := (t.nextId, t.nextId + 1)
      nextId := (t.nextId + 2) % (mtIdMax - 1) + 1 }

def frame (t : UinputTouch) : TouchFrame :=
  ⟨t.center, t.separation, t.ids, touchContacts t.center t.separation t.bounds⟩

/-- `pinch`, where `written` is what the writes of the frame come to. -/
def pinch (t : UinputTouch) (written : Except String Unit) (call : PinchCall) :
    Sent UinputTouch TouchReport :=
  let (t, lifted) := if t.Stale call.now then t.lift else (t, [])
  let t := t.begun call.anchor
  let t := { t with separation := touchSeparation t.separation call.delta }
  if elapsed call.now t.createdAt < touchSettle then .ok t lifted
  else
    match written with
    | .error error => ⟨t, lifted, .error error⟩
    | .ok () =>
      .ok { t with down := true, lastUpdate := some call.now } (lifted ++ [.contacts t.frame])

end UinputTouch

/-! ### A gesture -/

/-- The deltas of one gesture on a fresh device, in the order of the clock. -/
structure PinchGesture where
  width : ℕ
  height : ℕ
  createdAt : Instant
  calls : List PinchCall
  ordered : calls.Pairwise fun c d => c.now ≤ d.now

/-- The separation that deltas come to. -/
def separationOf (calls : List PinchCall) : ℚ :=
  calls.foldl (fun px call => touchSeparation px call.delta) 120

namespace PinchGesture

/-- A step of a device whose frames are written. Its user drops any other one. -/
def step (t : UinputTouch) (call : PinchCall) : UinputTouch × List TouchReport :=
  ((t.pinch (.ok ()) call).injector, (t.pinch (.ok ()) call).inputs)

variable (g : PinchGesture)

/-- The device behind some of the deltas. -/
abbrev after (l : List PinchCall) : UinputTouch :=
  Trace.final step (.create g.width g.height g.createdAt) l

/-- What a delta draws behind others. -/
abbrev drawn (l : List PinchCall) (call : PinchCall) : List TouchReport :=
  (step (g.after l) call).2

/-- The delta comes within the settle window. -/
def Settling (call : PinchCall) : Prop := elapsed call.now g.createdAt < touchSettle

instance (call : PinchCall) : Decidable (g.Settling call) := inferInstanceAs (Decidable (_ < _))

/-- The delta is the first one behind the settle window. -/
def Opens (l : List PinchCall) (call : PinchCall) : Prop :=
  l ++ [call] <+: g.calls ∧ (∀ c ∈ l, g.Settling c) ∧ ¬g.Settling call

/-- Nothing of the gesture is lost: the first frame comes with the first delta behind the window
and has the separation of all deltas so far, and the later ones stay with it. -/
structure Rendered : Prop where
  quiet : ∀ l call, l ++ [call] <+: g.calls → g.Settling call → g.drawn l call = []
  down : ∀ l call, g.Opens l call →
    ∃ frame, g.drawn l call = [.contacts frame] ∧ frame.separation = separationOf (l ++ [call]) ∧
      ∀ m later frame', l ++ [call] ++ m ++ [later] <+: g.calls →
        .contacts frame' ∈ g.drawn (l ++ [call] ++ m) later →
          frame'.center = frame.center ∧ frame'.ids = frame.ids

/-- The deltas within the window take the separation back to where a gesture starts. -/
def Neutral : Prop := ∀ l call, g.Opens l call → separationOf l = 120

/-- Behind the window, no delta comes after a silence that ends the gesture. -/
def Steady : Prop :=
  ∀ l c d, l ++ [c] ++ [d] <+: g.calls → ¬g.Settling c → elapsed d.now c.now ≤ touchStale

end PinchGesture

/-! ### The separation -/

lemma separationOf_snoc (l : List PinchCall) (call : PinchCall) :
    separationOf (l ++ [call]) = touchSeparation (separationOf l) call.delta := List.foldl_append

/-- A step from where a gesture starts is not pinned, so no other start comes to the same. -/
lemma touchSeparation_eq_start_iff {px : ℚ} {delta : Int32} :
    touchSeparation 120 delta = touchSeparation px delta ↔ px = 120 := by
  refine ⟨fun h => ?_, fun h => by rw [h]⟩
  simp only [touchSeparation] at h
  have hlow := pin.ge (by norm_num : (-6 : ℚ) ≤ 6) ((delta.toInt : ℚ) * (14 / 1000))
  have hhigh := pin.le (-6 : ℚ) 6 ((delta.toInt : ℚ) * (14 / 1000))
  generalize pin (-6 : ℚ) 6 ((delta.toInt : ℚ) * (14 / 1000)) = step at h hlow hhigh
  rw [pin.of_mem (by linarith) (by linarith)] at h
  rcases le_total (px + step) 40 with hle | hge
  · rw [pin.of_le (by norm_num) hle] at h
    linarith
  · rcases le_total 700 (px + step) with hge' | hle
    · rw [pin.of_ge hge'] at h
      linarith
    · rw [pin.of_mem hge hle] at h
      linarith

/-! ### What a delta does -/

namespace PinchGesture

variable {t : UinputTouch} {call : PinchCall} {since : Instant}

/-- While no contacts are down, each delta begins the gesture anew. -/
lemma step_settling (hdown : t.down = false) (h : elapsed call.now t.createdAt < touchSettle) :
    step t call =
      ({ t.begun call.anchor with separation := touchSeparation 120 call.delta }, []) := by
  have hstale : ¬t.Stale call.now := fun hc => by rw [hc.1] at hdown; cases hdown
  have hcreated : (t.begun call.anchor).createdAt = t.createdAt := by
    rw [UinputTouch.begun, hdown]; rfl
  have hseparation : (t.begun call.anchor).separation = 120 := by
    rw [UinputTouch.begun, hdown]; rfl
  simp only [step, UinputTouch.pinch, if_neg hstale, hcreated, if_pos h, hseparation, Sent.ok]

/-- The first frame is drawn by the first delta behind the window. -/
lemma step_opens (hdown : t.down = false) (h : ¬elapsed call.now t.createdAt < touchSettle) :
    step t call =
      ({ t with
        center := call.anchor, separation := touchSeparation 120 call.delta
        ids := (t.nextId, t.nextId + 1), nextId := (t.nextId + 2) % (mtIdMax - 1) + 1
        down := true, lastUpdate := some call.now },
      [.contacts ⟨call.anchor, touchSeparation 120 call.delta, (t.nextId, t.nextId + 1),
        touchContacts call.anchor (touchSeparation 120 call.delta) t.bounds⟩]) := by
  have hstale : ¬t.Stale call.now := fun hc => by rw [hc.1] at hdown; cases hdown
  have hbegun : t.begun call.anchor =
      { t with
        center := call.anchor, separation := 120, ids := (t.nextId, t.nextId + 1)
        nextId := (t.nextId + 2) % (mtIdMax - 1) + 1 } := by
    rw [UinputTouch.begun, hdown]; rfl
  simp only [step, UinputTouch.pinch, if_neg hstale, hbegun, if_neg h, Sent.ok, UinputTouch.frame,
    List.nil_append]

lemma stale_iff (hdown : t.down = true) (hlast : t.lastUpdate = some since) :
    t.Stale call.now ↔ touchStale < elapsed call.now since := by
  simp [UinputTouch.Stale, hdown, hlast]

/-- A delta that comes in time goes on with the gesture. -/
lemma step_held (hdown : t.down = true) (hlast : t.lastUpdate = some since)
    (h : ¬elapsed call.now t.createdAt < touchSettle)
    (hsteady : elapsed call.now since ≤ touchStale) :
    step t call =
      ({ t with
        separation := touchSeparation t.separation call.delta, lastUpdate := some call.now },
      [.contacts { t with separation := touchSeparation t.separation call.delta }.frame]) := by
  have hstale : ¬t.Stale call.now := by rw [stale_iff hdown hlast]; exact not_lt.mpr hsteady
  have hbegun : t.begun call.anchor = t := by rw [UinputTouch.begun, if_pos hdown]
  simp only [step, UinputTouch.pinch, if_neg hstale, hbegun, if_neg h, Sent.ok, hdown,
    UinputTouch.frame, List.nil_append]

/-- Behind too long a silence the contacts are lifted, and come back with other ids. -/
lemma step_stale (hdown : t.down = true) (hlast : t.lastUpdate = some since)
    (h : ¬elapsed call.now t.createdAt < touchSettle)
    (hsilent : ¬elapsed call.now since ≤ touchStale) :
    ∃ frame, .contacts frame ∈ (step t call).2 ∧ frame.ids = (t.nextId, t.nextId + 1) := by
  have hstale : t.Stale call.now := by rw [stale_iff hdown hlast]; exact not_le.mp hsilent
  have hlift : t.lift = ({ t with down := false, lastUpdate := none }, [.lift]) := by
    rw [UinputTouch.lift, if_pos hdown]
  have hbegun : ({ t with down := false, lastUpdate := none } : UinputTouch).begun call.anchor =
      { t with
        down := false, lastUpdate := none, center := call.anchor, separation := 120
        ids := (t.nextId, t.nextId + 1), nextId := (t.nextId + 2) % (mtIdMax - 1) + 1 } := rfl
  simp only [step, UinputTouch.pinch, if_pos hstale, hlift, hbegun, if_neg h, Sent.ok,
    UinputTouch.frame]
  exact ⟨_, List.mem_append_right _ List.mem_cons_self, rfl⟩

/-! ### The device behind some deltas -/

variable {g : PinchGesture} {l m : List PinchCall} {c d : PinchCall}

/-- No contacts were put down yet. -/
structure Waiting (t : UinputTouch) (createdAt : Instant) : Prop where
  up : t.down = false
  created : t.createdAt = createdAt
  next : 1 ≤ t.nextId ∧ t.nextId < mtIdMax

lemma nextId_bounds (n : ℕ) :
    1 ≤ (n + 2) % (mtIdMax - 1) + 1 ∧ (n + 2) % (mtIdMax - 1) + 1 < mtIdMax := by
  have hlt : (n + 2) % (mtIdMax - 1) < mtIdMax - 1 := Nat.mod_lt _ (by decide)
  omega

lemma waiting_after (h : ∀ c ∈ l, g.Settling c) : Waiting (g.after l) g.createdAt := by
  induction l using List.reverseRecOn with
  | nil => exact ⟨rfl, rfl, show 1 ≤ 3 ∧ 3 < mtIdMax by decide⟩
  | append_singleton l c ih =>
    have hbefore := ih fun c hc => h c (List.mem_append_left _ hc)
    have hsettling : elapsed c.now (g.after l).createdAt < touchSettle := by
      rw [hbefore.created]
      exact h c (List.mem_append_right _ List.mem_cons_self)
    rw [after, Trace.final_snoc, step_settling hbefore.up hsettling, UinputTouch.begun, hbefore.up]
    exact ⟨rfl, hbefore.created, nextId_bounds _⟩

/-- The contacts of a gesture are down, `since` is when they last moved. -/
structure Holding (t : UinputTouch) (center : ℤ × ℤ) (n : ℕ) (since createdAt : Instant) :
    Prop where
  down : t.down = true
  center : t.center = center
  ids : t.ids = (n, n + 1)
  next : t.nextId = (n + 2) % (mtIdMax - 1) + 1
  last : t.lastUpdate = some since
  created : t.createdAt = createdAt

/-- The first delta behind the window puts the contacts down. -/
lemma Opens.holding (h : g.Opens l c) :
    Holding (g.after (l ++ [c])) c.anchor (g.after l).nextId c.now g.createdAt := by
  have hwaiting := waiting_after h.2.1
  have hlate : ¬elapsed c.now (g.after l).createdAt < touchSettle := by
    rw [hwaiting.created]
    exact h.2.2
  rw [after, Trace.final_snoc, step_opens hwaiting.up hlate]
  exact ⟨rfl, rfl, rfl, rfl, rfl, hwaiting.created⟩

lemma not_settling_of_le (h : ¬g.Settling c) (hle : c.now ≤ d.now) : ¬g.Settling d :=
  fun hd => h ((Nat.sub_le_sub_right hle _).trans_lt hd)

/-- The deltas come in the order of the clock. -/
lemma le_of_places (h : l ++ [c] ++ m ++ [d] <+: g.calls) : c.now ≤ d.now := by
  have hpairs := g.ordered.sublist h.sublist
  rw [List.append_assoc, List.pairwise_append] at hpairs
  exact hpairs.2.2 c (by simp) d (by simp)

/-- The delta comes in time behind the ones since the first frame. -/
def InTime (c : PinchCall) (m : List PinchCall) (d : PinchCall) : Prop :=
  elapsed d.now (m.getLastD c).now ≤ touchStale

lemma holding_after (hopens : g.Opens l c) (hm : l ++ [c] ++ m <+: g.calls)
    (htime : Trace.Each (InTime c) m) :
    Holding (g.after (l ++ [c] ++ m)) c.anchor (g.after l).nextId (m.getLastD c).now
      g.createdAt := by
  induction m using List.reverseRecOn with
  | nil =>
    rw [List.append_nil]
    exact hopens.holding
  | append_singleton m d ih =>
    obtain ⟨hbefore, hd⟩ := Trace.each_snoc.mp htime
    rw [← List.append_assoc] at hm
    have h := ih (Trace.earlier hm) hbefore
    have hlate : ¬elapsed d.now (g.after (l ++ [c] ++ m)).createdAt < touchSettle := by
      rw [h.created]
      exact not_settling_of_le hopens.2.2 (le_of_places hm)
    rw [← List.append_assoc, after, Trace.final_snoc, step_held h.down h.last hlate hd,
      List.getLastD_concat]
    exact ⟨h.down, h.center, h.ids, h.next, rfl, h.created⟩

/-- The delta draws nothing of another gesture than that of the first frame. -/
def Keeps (g : PinchGesture) (l : List PinchCall) (c : PinchCall) (m : List PinchCall)
    (d : PinchCall) : Prop :=
  ∀ frame, .contacts frame ∈ g.drawn (l ++ [c] ++ m) d →
    frame.center = c.anchor ∧ frame.ids = ((g.after l).nextId, (g.after l).nextId + 1)

/-- A delta stays with the gesture exactly if it comes in time. -/
lemma keeps_iff (hopens : g.Opens l c) (hm : l ++ [c] ++ m ++ [d] <+: g.calls)
    (htime : Trace.Each (InTime c) m) : Keeps g l c m d ↔ InTime c m d := by
  have h := holding_after hopens (Trace.earlier hm) htime
  have hlate : ¬elapsed d.now (g.after (l ++ [c] ++ m)).createdAt < touchSettle := by
    rw [h.created]
    exact not_settling_of_le hopens.2.2 (le_of_places hm)
  constructor
  · intro hkeeps
    by_contra hsilent
    obtain ⟨frame, hmem, hids⟩ := step_stale h.down h.last hlate hsilent
    have hsame := congrArg Prod.fst (hids.symm.trans (hkeeps frame hmem).2)
    have hnext := (waiting_after hopens.2.1).next
    simp only [h.next, mtIdMax] at hsame hnext
    omega
  · intro htime frame hmem
    rw [drawn, step_held h.down h.last hlate htime, List.mem_singleton] at hmem
    cases hmem
    exact ⟨h.center, h.ids⟩

/-- All later deltas stay with the gesture exactly if they all come in time. -/
lemma each_keeps_iff (hopens : g.Opens l c) (hm : l ++ [c] ++ m <+: g.calls) :
    Trace.Each (Keeps g l c) m ↔ Trace.Each (InTime c) m := by
  induction m using List.reverseRecOn with
  | nil => exact iff_of_true Trace.each_nil Trace.each_nil
  | append_singleton m d ih =>
    rw [← List.append_assoc] at hm
    rw [Trace.each_snoc, Trace.each_snoc, ih (Trace.earlier hm)]
    exact and_congr_right fun htime => keeps_iff hopens hm htime

/-! ### What is rendered -/

/-- Wherever the window is over, one delta was the first behind it. -/
lemma exists_opens (h : l ++ [c] <+: g.calls) (hc : ¬g.Settling c) :
    ∃ k a m, g.Opens k a ∧ l ++ [c] = k ++ [a] ++ m := by
  have hfirst : ¬Trace.Each (fun _ c => g.Settling c) (l ++ [c]) :=
    fun hall => hc (Trace.each_snoc.mp hall).2
  obtain ⟨k, a, hka, hk, ha⟩ := Trace.exists_first hfirst
  obtain ⟨m, hm⟩ := hka
  refine ⟨k, a, m, ⟨List.IsPrefix.trans ⟨m, hm⟩ h, fun d hd => ?_, ha⟩, hm.symm⟩
  obtain ⟨k₁, k₂, rfl⟩ := List.append_of_mem hd
  exact hk k₁ d ⟨k₂, by simp⟩

lemma steady_iff : g.Steady ↔ ∀ l c m, g.Opens l c → l ++ [c] ++ m <+: g.calls →
    Trace.Each (InTime c) m := by
  constructor
  · intro hsteady l c m hopens hm k d hkd
    have hplace : l ++ [c] ++ k ++ [d] <+: g.calls := by
      refine List.IsPrefix.trans ?_ hm
      rw [List.append_assoc (l ++ [c])]
      exact (List.prefix_append_right_inj _).mpr hkd
    rcases List.eq_nil_or_concat k with rfl | ⟨k, x, rfl⟩
    · rw [List.append_nil] at hplace
      exact hsteady l c d hplace hopens.2.2
    · rw [List.concat_eq_append] at hplace ⊢
      rw [← List.append_assoc] at hplace
      rw [InTime, List.getLastD_concat]
      exact hsteady _ x d hplace
        (not_settling_of_le hopens.2.2 (le_of_places (Trace.earlier hplace)))
  · intro h l c d hplace hc
    obtain ⟨k, a, m, hopens, hsplit⟩ := exists_opens (Trace.earlier hplace) hc
    rw [hsplit, List.append_assoc] at hplace
    have htime := (Trace.each_snoc.mp (h k a (m ++ [d]) hopens hplace)).2
    have hlast : m.getLastD a = c := by
      rcases List.eq_nil_or_concat m with rfl | ⟨m, x, rfl⟩
      · rw [List.append_nil] at hsplit
        exact (List.singleton_inj.mp (List.append_inj' hsplit rfl).2).symm
      · rw [List.concat_eq_append, ← List.append_assoc] at hsplit
        rw [List.concat_eq_append, List.getLastD_concat]
        exact (List.singleton_inj.mp (List.append_inj' hsplit rfl).2).symm
    rwa [InTime, hlast] at htime

/-- A delta within the window draws nothing. -/
lemma drawn_settling (h : l ++ [c] <+: g.calls) (hc : g.Settling c) : g.drawn l c = [] := by
  have hall : ∀ d ∈ l, g.Settling d := by
    intro d hd
    by_contra hlate
    obtain ⟨k, m, rfl⟩ := List.append_of_mem hd
    have hplace : k ++ [d] ++ m ++ [c] <+: g.calls := by simpa using h
    exact not_settling_of_le hlate (le_of_places hplace) hc
  have hwaiting := waiting_after hall
  rw [drawn, step_settling hwaiting.up (by rw [hwaiting.created]; exact hc)]

lemma Opens.drawn (h : g.Opens l c) :
    g.drawn l c = [.contacts ⟨c.anchor, touchSeparation 120 c.delta,
      ((g.after l).nextId, (g.after l).nextId + 1),
      touchContacts c.anchor (touchSeparation 120 c.delta) (g.after l).bounds⟩] := by
  have hwaiting := waiting_after h.2.1
  rw [PinchGesture.drawn, step_opens hwaiting.up (by rw [hwaiting.created]; exact h.2.2)]

/-- **Pinches during the settle window.** A gesture is rendered with nothing lost exactly if the
deltas within the window come to nothing and no silence behind it ends the gesture. -/
theorem rendered_iff (g : PinchGesture) : g.Rendered ↔ g.Neutral ∧ g.Steady := by
  rw [steady_iff]
  constructor
  · intro hrendered
    refine ⟨fun l c hopens => ?_, fun l c m hopens hm => (each_keeps_iff hopens hm).mp ?_⟩
    · obtain ⟨frame, hdrawn, hfold, -⟩ := hrendered.down l c hopens
      rw [hopens.drawn] at hdrawn
      cases hdrawn
      rw [separationOf_snoc] at hfold
      exact touchSeparation_eq_start_iff.mp hfold
    · obtain ⟨frame, hdrawn, -, hkept⟩ := hrendered.down l c hopens
      rw [hopens.drawn] at hdrawn
      cases hdrawn
      intro k d hkd frame' hmem
      refine hkept k d frame' (List.IsPrefix.trans ?_ hm) hmem
      rw [List.append_assoc (l ++ [c])]
      exact (List.prefix_append_right_inj _).mpr hkd
  · rintro ⟨hneutral, htime⟩
    refine ⟨fun l c => drawn_settling, fun l c hopens => ⟨_, hopens.drawn, ?_, ?_⟩⟩
    · rw [separationOf_snoc]
      exact touchSeparation_eq_start_iff.mpr (hneutral l c hopens)
    · intro m d frame' hm hmem
      have hbefore := htime l c (m ++ [d]) hopens (by rwa [← List.append_assoc])
      exact (keeps_iff hopens hm (Trace.each_snoc.mp hbefore).1).mpr
        (Trace.each_snoc.mp hbefore).2 frame' hmem

/-- One detent while the device settles, and one behind the window. -/
def absorbed : PinchGesture where
  width := 1920
  height := 1080
  createdAt := 0
  calls := [⟨Duration.fromMillis 100, (960, 540), 120⟩, ⟨Duration.fromMillis 800, (960, 540), 120⟩]
  ordered := by decide

/-- The first frame has the separation of the second delta alone. -/
theorem absorbed_is_lost : ¬absorbed.Rendered := by
  intro hrendered
  have hopens : absorbed.Opens [⟨Duration.fromMillis 100, (960, 540), 120⟩]
      ⟨Duration.fromMillis 800, (960, 540), 120⟩ :=
    ⟨List.prefix_rfl, by decide, by decide⟩
  obtain ⟨frame, hdrawn, hfold, -⟩ := hrendered.down _ _ hopens
  have hlost : absorbed.drawn [⟨Duration.fromMillis 100, (960, 540), 120⟩]
      ⟨Duration.fromMillis 800, (960, 540), 120⟩ =
        [.contacts ⟨(960, 540), 12168 / 100, (6, 7), ((899, 540), (1021, 540))⟩] := by
    decide +kernel
  rw [hlost] at hdrawn
  cases hdrawn
  exact absurd hfold (by decide +kernel)

end PinchGesture

end TheKvm

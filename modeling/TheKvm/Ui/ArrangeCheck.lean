import TheKvm.Lib.Throttle
import TheKvm.Ui.Arrangement

/-!
The throttle of the link pass.

The poll makes the pass once a second, and each pass stamps the time of the last look, the ones
that do not look too.
-/

namespace TheKvm

open Throttle

/-- A call of `ensure_link_arrangement`, and the settings that it finds. The clock counts its
seconds in 63 bits, so the sum with the stamp does not wrap. -/
structure LinkCheck where
  config : Config
  now : ℕ
  peer : Option Peer
  answered : Answered

namespace LinkCheck

variable (windows : Bool) (myFingerprint : String)

/-- A call, and whether it gets past the throttle. -/
def step (s : Arranging) (c : LinkCheck) : Arranging × Bool :=
  (({ s with config := c.config } : Arranging).pass windows myFingerprint c.answered
    (.ensureLink c.now c.peer), s.due c.now)

/-- The stamp is zero when the UI starts. -/
def start (config : Config) : Arranging := ⟨config, 0⟩

lemma stamped_step (s : Arranging) (c : LinkCheck) :
    stamped 60 s.lastArrangeCheck c.now =
      ((step windows myFingerprint s c).1.lastArrangeCheck,
        (step windows myFingerprint s c).2) := rfl

/-- A call that is held back writes nothing. -/
lemma config_of_held {s : Arranging} {c : LinkCheck}
    (h : (step windows myFingerprint s c).2 = false) :
    (step windows myFingerprint s c).1.config = c.config := by
  have hdue : s.due c.now = false := h
  have hplan : Arranging.plan myFingerprint { s with config := c.config } c.answered
      (.ensureLink c.now c.peer) = none := by
    have hnot : ¬((Arranging.due { s with config := c.config } c.now && c.answered.config) =
        true) := by
      change ¬((s.due c.now && c.answered.config) = true)
      rw [hdue, Bool.false_and]
      exact Bool.false_ne_true
    exact if_neg hnot
  simp only [step, Arranging.pass, hplan]

/-- Along polls that are less than a minute apart, only the first call can write an arrangement. -/
theorem series_writes_once (config : Config) (calls : List LinkCheck)
    (hseries : (calls.map now).IsChain (Close 60)) :
    Trace.Each (fun before c => before ≠ [] →
      (step windows myFingerprint (Trace.final (step windows myFingerprint) (start config) before)
        c).1.config = c.config) calls := by
  rintro before c hbefore hne
  refine config_of_held windows myFingerprint ?_
  obtain ⟨first, rest, rfl⟩ := List.exists_cons_of_ne_nil hne
  have hplace : (first :: (rest ++ [c])).map now <+: calls.map now := hbefore.map now
  have hclose := hseries.prefix hplace
  rw [List.map_cons, List.map_append, List.map_singleton] at hclose
  have hheld := ((series_snoc 0 []).mp hclose).2
  rw [Bool.not_eq_true] at hheld
  have hstamp : Trace.final (stamped 60) 0 ((first :: rest).map now) =
      (Trace.final (step windows myFingerprint) (start config)
        (first :: rest)).lastArrangeCheck :=
    final_map (stamped_step windows myFingerprint) (start config) (first :: rest)
  rw [List.nil_append, ← List.map_cons, hstamp] at hheld
  exact hheld

end LinkCheck

/-- The calls that get past the throttle are a minute apart. -/
theorem link_checks_never_flood (windows : Bool) (myFingerprint : String) (config : Config)
    (calls : List LinkCheck) (hmono : (calls.map LinkCheck.now).Pairwise (· ≤ ·)) :
    NeverFloods LinkCheck.now (LinkCheck.step windows myFingerprint) 60 (LinkCheck.start config)
      calls :=
  (neverFloods_map (LinkCheck.stamped_step windows myFingerprint) (LinkCheck.start config)
    calls).mp (neverFloods_stamped hmono)

/-- **The link pass**. The calls that get past the throttle are a minute apart, and every call gets
past that comes a minute behind the last one that did, exactly if no series of calls, each less
than a minute behind the one before, goes on for a minute. -/
theorem link_checks_iff (windows : Bool) (myFingerprint : String) (config : Config)
    (calls : List LinkCheck) (hmono : (calls.map LinkCheck.now).Pairwise (· ≤ ·))
    (hfirst : ∀ t ∈ (calls.map LinkCheck.now).head?, 60 ≤ t) :
    (NeverFloods LinkCheck.now (LinkCheck.step windows myFingerprint) 60 (LinkCheck.start config)
        calls ∧
      NeverStarves LinkCheck.now (LinkCheck.step windows myFingerprint) 60
        (LinkCheck.start config) calls) ↔
      Pauses 60 (calls.map LinkCheck.now) := by
  have hstamp := LinkCheck.stamped_step windows myFingerprint
  rw [and_iff_right ((neverFloods_map hstamp (LinkCheck.start config) calls).mp
    (neverFloods_stamped hmono)), ← neverStarves_map hstamp]
  exact neverStarves_stamped_iff hmono fun t ht => by simpa [LinkCheck.start] using hfirst t ht

namespace LinkCheck

/-- A poll of a machine that knows no peer yet. -/
def poll (now : ℕ) : LinkCheck := ⟨Config.fresh "desk", now, none, ⟨true, true, true, .ok ()⟩⟩

end LinkCheck

theorem sparse_polls_test :
    let polls := [60, 100, 170].map LinkCheck.poll
    (NeverFloods LinkCheck.now (LinkCheck.step false "aa") 60 (LinkCheck.start (.fresh "desk"))
        polls ∧
      NeverStarves LinkCheck.now (LinkCheck.step false "aa") 60 (LinkCheck.start (.fresh "desk"))
        polls) ↔
      Pauses 60 [60, 100, 170] :=
  link_checks_iff false "aa" (.fresh "desk") ([60, 100, 170].map LinkCheck.poll) (by decide)
    (by decide)

/-- Polled every second for a minute, the pass does not look again. -/
theorem poll_starves_check :
    ¬(NeverFloods LinkCheck.now (LinkCheck.step false "aa") 60 (LinkCheck.start (.fresh "desk"))
        ((List.range' 60 61).map LinkCheck.poll) ∧
      NeverStarves LinkCheck.now (LinkCheck.step false "aa") 60 (LinkCheck.start (.fresh "desk"))
        ((List.range' 60 61).map LinkCheck.poll)) := by
  rintro ⟨-, hstarves⟩
  have hplace : (List.range' 60 60).map LinkCheck.poll ++ [LinkCheck.poll 120] <+:
      (List.range' 60 61).map LinkCheck.poll := by
    rw [List.range'_concat, List.map_append]
    exact List.prefix_refl _
  have hpast := hstarves _ _ hplace 60 (by decide) (by decide)
  exact absurd hpast (by decide)

end TheKvm

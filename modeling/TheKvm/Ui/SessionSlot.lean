import Mathlib.Data.Finset.Erase
import Mathlib.Data.Finset.Insert
import Mathlib.Logic.Function.Basic
import TheKvm.Lib.Trace

/-!
The slot of the supervised child, and the threads that launch and stop children.

The slot is locked for one look or one change at a time: a launch looks, stops what it found,
spawns, and stores its child behind that. A child that is dropped without a kill keeps running.
-/

namespace TheKvm

/-- What `launch_child` is asked for. -/
structure LinkPlan where
  address : String
  dialback : Bool
  linkId : Option UInt64
  deriving DecidableEq

/-- A supervised child: the process, and what it was launched for. -/
structure Session where
  child : ℕ
  plan : LinkPlan
  deriving DecidableEq

/-- Where a thread is: in no call, in `launch_child` (at its look at the slot, before the spawn,
before the store), or in `stop_session`, for itself or for a launch (before the take, before the
kill). -/
inductive Caller
  | idle
  | looking (plan : LinkPlan)
  | taking (next : Option LinkPlan)
  | killing (child : ℕ) (next : Option LinkPlan)
  | spawning (plan : LinkPlan)
  | storing (session : Session)
  deriving DecidableEq

/-- The child a thread has taken to kill it. -/
def Caller.dying : Caller → Option ℕ
  | .killing child _ => some child
  | _ => none

/-- The child a launch has just spawned. -/
def Caller.newborn : Caller → Option ℕ
  | .storing session => some session.child
  | _ => none

/-- The child in a thread's hands. -/
def Caller.hand (c : Caller) : Option ℕ := c.dying.or c.newborn

/-- A call of `launch_child` is in progress. -/
def Caller.launches : Caller → Bool
  | .looking _ | .taking (some _) | .killing _ (some _) | .spawning _ | .storing _ => true
  | _ => false

/-- What a thread does behind `stop_session`. -/
def Caller.behindStop : Option LinkPlan → Caller
  | none => .idle
  | some plan => .spawning plan

structure SessionSlot where
  slot : Option Session
  /-- the children that were spawned, and have neither exited nor been killed -/
  running : Finset ℕ
  spawned : ℕ
  caller : ℕ → Caller

namespace SessionSlot

inductive Op
  | launch (thread : ℕ) (plan : LinkPlan)
  | stop (thread : ℕ)
  | proceed (thread : ℕ) (spawns : Bool)
  | exit (child : ℕ)
  | reap (fails : Bool)

def init : SessionSlot := ⟨none, ∅, 0, fun _ => .idle⟩

def goTo (s : SessionSlot) (thread : ℕ) (caller : Caller) : SessionSlot :=
  { s with caller := Function.update s.caller thread caller }

/-- The call starts, if the thread is in no other. -/
def enter (s : SessionSlot) (thread : ℕ) (caller : Caller) : SessionSlot :=
  if s.caller thread = .idle then s.goTo thread caller else s

/-- `stop_session` takes what is in the slot. -/
def take (s : SessionSlot) (thread : ℕ) (next : Option LinkPlan) : SessionSlot :=
  match s.slot with
  | none => s.goTo thread (.behindStop next)
  | some session => { s with slot := none }.goTo thread (.killing session.child next)

def kill (s : SessionSlot) (child : ℕ) : SessionSlot :=
  { s with running := s.running.erase child }

/-- A child is spawned, or there is no daemon to spawn. -/
def spawn (s : SessionSlot) (thread : ℕ) (plan : LinkPlan) (spawns : Bool) : SessionSlot :=
  if spawns then
    { s with running := insert s.spawned s.running, spawned := s.spawned + 1 }.goTo thread
      (.storing ⟨s.spawned, plan⟩)
  else s.goTo thread .idle

/-- The next step of a thread. -/
def proceed (s : SessionSlot) (thread : ℕ) (spawns : Bool) : SessionSlot :=
  match s.caller thread with
  | .idle => s
  | .looking plan =>
    if s.slot.isSome then s.goTo thread (.taking (some plan)) else s.goTo thread (.spawning plan)
  | .taking next => s.take thread next
  | .killing child next => (s.kill child).goTo thread (.behindStop next)
  | .spawning plan => s.spawn thread plan spawns
  | .storing session => { s with slot := some session }.goTo thread .idle

/-- A look at whether the child in the slot has exited, which may fail: then and when it has, the
slot is cleared. -/
def reap (s : SessionSlot) (fails : Bool) : SessionSlot :=
  match s.slot with
  | none => s
  | some session => if fails ∨ session.child ∉ s.running then { s with slot := none } else s

def step (s : SessionSlot) : Op → SessionSlot
  | .launch thread plan => s.enter thread (.looking plan)
  | .stop thread => s.enter thread (.taking none)
  | .proceed thread spawns => s.proceed thread spawns
  | .exit child => s.kill child
  | .reap fails => s.reap fails

/-- The slot and the threads behind the steps of a run. -/
abbrev after (ops : List Op) : SessionSlot :=
  Trace.final (fun s op => (s.step op, ())) init ops

/-! ### What is supervised -/

/-- The child runs, and no `stop_session` has taken it to kill it. -/
def Unkilled (s : SessionSlot) (child : ℕ) : Prop :=
  child ∈ s.running ∧ ∀ thread, (s.caller thread).dying ≠ some child

/-- Disconnect reaches the child. -/
def InSlot (s : SessionSlot) (child : ℕ) : Prop := s.slot.map (·.child) = some child

/-- The launch that has just spawned the child has it. -/
def Launching (s : SessionSlot) (child : ℕ) : Prop :=
  ∃ thread, (s.caller thread).newborn = some child

/-- A child that was not killed is in the slot or held by its launch, so with no launch in
progress there is at most one, and Disconnect reaches it. -/
structure Supervised (s : SessionSlot) : Prop where
  held : ∀ child, s.Unkilled child → s.InSlot child ∨ s.Launching child
  reached : (∀ thread, (s.caller thread).launches = false) → ∀ child, s.Unkilled child →
    s.InSlot child
  alone : (∀ thread, (s.caller thread).launches = false) → ∀ child child',
    s.Unkilled child → s.Unkilled child' → child = child'

/-- The child in the slot does not run. -/
def Vacant (s : SessionSlot) : Prop := ∀ child, s.InSlot child → child ∉ s.running

/-- A launch stores its child where no child runs, and a look that fails is at a child that does
not run. -/
def Guarded (s : SessionSlot) : Op → Prop
  | .proceed thread _ => (s.caller thread).newborn ≠ none → s.Vacant
  | .reap fails => fails = true → s.Vacant
  | _ => True

/-! ### One step -/

/-- What a step does, and whether it drops what is in the slot. -/
inductive Moves (s : SessionSlot) : SessionSlot → Bool → Prop
  | stayed : Moves s s false
  | turned (thread : ℕ) (caller : Caller) (hhand : (s.caller thread).hand = none)
      (hhand' : caller.hand = none) : Moves s (s.goTo thread caller) false
  | taken (thread : ℕ) (next : Option LinkPlan) (session : Session)
      (hslot : s.slot = some session) (hhand : (s.caller thread).hand = none) :
      Moves s ({ s with slot := none }.goTo thread (.killing session.child next)) false
  | killed (thread : ℕ) (child : ℕ) (next : Option LinkPlan)
      (hcaller : s.caller thread = .killing child next) :
      Moves s ((s.kill child).goTo thread (.behindStop next)) false
  | spawned (thread : ℕ) (plan : LinkPlan) (hhand : (s.caller thread).hand = none) :
      Moves s (s.spawn thread plan true) false
  | exited (child : ℕ) : Moves s (s.kill child) false
  | stored (thread : ℕ) (session : Session) (hcaller : s.caller thread = .storing session) :
      Moves s ({ s with slot := some session }.goTo thread .idle) true
  | cleared : Moves s { s with slot := none } true

lemma hand_behindStop (next : Option LinkPlan) : (Caller.behindStop next).hand = none := by
  cases next <;> rfl

variable {s s' : SessionSlot} {drops : Bool}

lemma enter_moves (s : SessionSlot) (thread : ℕ) {caller : Caller} (hcaller : caller.hand = none) :
    Moves s (s.enter thread caller) false := by
  unfold enter
  split_ifs with hidle
  · exact .turned thread caller (by rw [hidle]; rfl) hcaller
  · exact .stayed

lemma proceed_moves (s : SessionSlot) (thread : ℕ) (spawns : Bool) :
    ∃ drops, Moves s (s.proceed thread spawns) drops ∧
      (Guarded s (.proceed thread spawns) ↔ (drops = true → s.Vacant)) := by
  unfold proceed Guarded
  cases hcaller : s.caller thread with
  | idle => exact ⟨false, .stayed, by simp [hcaller, Caller.newborn]⟩
  | looking plan =>
    dsimp only
    split_ifs
    · exact ⟨false, .turned thread _ (by rw [hcaller]; rfl) rfl, by simp [hcaller, Caller.newborn]⟩
    · exact ⟨false, .turned thread _ (by rw [hcaller]; rfl) rfl, by simp [hcaller, Caller.newborn]⟩
  | taking next =>
    refine ⟨false, ?_, by simp [hcaller, Caller.newborn]⟩
    dsimp only
    unfold take
    split
    · exact .turned thread _ (by rw [hcaller]; rfl) (hand_behindStop next)
    · rename_i session hslot
      exact .taken thread next session hslot (by rw [hcaller]; rfl)
  | killing child next =>
    exact ⟨false, .killed thread child next hcaller, by simp [hcaller, Caller.newborn]⟩
  | spawning plan =>
    refine ⟨false, ?_, by simp [hcaller, Caller.newborn]⟩
    cases spawns with
    | true => exact .spawned thread plan (by rw [hcaller]; rfl)
    | false => exact .turned thread .idle (by rw [hcaller]; rfl) rfl
  | storing session =>
    exact ⟨true, .stored thread session hcaller, by simp [hcaller, Caller.newborn]⟩

lemma reap_moves (s : SessionSlot) (fails : Bool) :
    ∃ drops, Moves s (s.reap fails) drops ∧
      (Guarded s (.reap fails) ↔ (drops = true → s.Vacant)) := by
  unfold reap Guarded
  split
  · rename_i hslot
    exact ⟨false, .stayed, iff_of_true (fun _ _ h => by simp [InSlot, hslot] at h) (by simp)⟩
  · rename_i session hslot
    split_ifs with hgone
    · refine ⟨true, .cleared, fun h _ => ?_, fun h _ => h rfl⟩
      rcases hgone with hfails | hexited
      · exact h hfails
      · intro child hchild
        rw [InSlot, hslot] at hchild
        obtain rfl := Option.some.inj hchild
        exact hexited
    · rw [not_or] at hgone
      exact ⟨false, .stayed, iff_of_true (fun hfails => absurd hfails hgone.1) (by simp)⟩

lemma moves_step (s : SessionSlot) (op : Op) :
    ∃ drops, Moves s (s.step op) drops ∧ (Guarded s op ↔ (drops = true → s.Vacant)) := by
  cases op with
  | launch thread plan => exact ⟨false, s.enter_moves thread rfl, by simp [Guarded]⟩
  | stop thread => exact ⟨false, s.enter_moves thread rfl, by simp [Guarded]⟩
  | proceed thread spawns => exact s.proceed_moves thread spawns
  | exit child => exact ⟨false, .exited child, by simp [Guarded]⟩
  | reap fails => exact s.reap_moves fails

lemma slot_enter (s : SessionSlot) (thread : ℕ) (caller : Caller) :
    (s.enter thread caller).slot = s.slot := by
  unfold enter
  split_ifs <;> rfl

/-- Only a launch at its store puts a child in the slot. -/
lemma slot_step {op : Op} {session : Session} (h : (s.step op).slot = some session) :
    s.slot = some session ∨ ∃ thread spawns, op = .proceed thread spawns ∧
      s.caller thread = .storing session := by
  cases op with
  | launch thread plan => exact Or.inl (by rw [← h, step, slot_enter])
  | stop thread => exact Or.inl (by rw [← h, step, slot_enter])
  | exit child => exact Or.inl h
  | reap fails =>
    left
    change (s.reap fails).slot = some session at h
    unfold reap at h
    split at h
    · exact h
    · split_ifs at h
      exact h
  | proceed thread spawns =>
    change (s.proceed thread spawns).slot = some session at h
    unfold proceed at h
    split at h
    · exact Or.inl h
    · split_ifs at h <;> exact Or.inl h
    · unfold take at h
      split at h
      · exact Or.inl h
      · cases h
    · exact Or.inl h
    · unfold spawn at h
      split_ifs at h <;> exact Or.inl h
    · rename_i session' hcaller
      obtain rfl := Option.some.inj h
      exact Or.inr ⟨thread, spawns, rfl, hcaller⟩

/-! ### One place for each child -/

/-- The slot, or the hands of a thread. -/
inductive Place
  | slot
  | hand (thread : ℕ)
  deriving DecidableEq

/-- The child is at the place. -/
def At (s : SessionSlot) : Place → ℕ → Prop
  | .slot, child => s.InSlot child
  | .hand thread, child => (s.caller thread).hand = some child

/-- A child is in one place only, and was spawned. -/
structure Apart (s : SessionSlot) : Prop where
  eq_of_at : ∀ p q child, s.At p child → s.At q child → p = q
  at_lt : ∀ p child, s.At p child → child < s.spawned
  running_lt : ∀ child ∈ s.running, child < s.spawned

/-- What each place has came from one place. -/
lemma Apart.of_source (h : Apart s) (source : Place → Place)
    (hsource : ∀ p child, s'.At p child → s.At (source p) child)
    (hinj : ∀ p q child, s'.At p child → s'.At q child → source p = source q → p = q)
    (hrunning : s'.running ⊆ s.running) (hspawned : s'.spawned = s.spawned) : Apart s' where
  eq_of_at := fun p q child hp hq =>
    hinj p q child hp hq (h.eq_of_at _ _ child (hsource p child hp) (hsource q child hq))
  at_lt := fun p child hp => hspawned ▸ h.at_lt _ child (hsource p child hp)
  running_lt := fun child hchild => hspawned ▸ h.running_lt child (hrunning hchild)

/-- What each place has was there. -/
lemma Apart.of_at (h : Apart s) (hat : ∀ p child, s'.At p child → s.At p child)
    (hrunning : s'.running ⊆ s.running) (hspawned : s'.spawned = s.spawned) : Apart s' :=
  h.of_source id hat (fun _ _ _ _ _ heq => heq) hrunning hspawned

lemma goTo_hand (s : SessionSlot) (thread thread' : ℕ) (caller : Caller) :
    ((s.goTo thread caller).caller thread').hand =
      if thread' = thread then caller.hand else (s.caller thread').hand := by
  unfold goTo
  dsimp only
  rw [Function.update_apply]
  split <;> rfl

/-- A thread goes on with nothing in its hands. -/
lemma at_goTo_none {thread : ℕ} {caller : Caller} (hcaller : caller.hand = none) {p : Place}
    {child : ℕ} (h : (s.goTo thread caller).At p child) : s.At p child := by
  cases p with
  | slot => exact h
  | hand thread' =>
    simp only [At, goTo_hand] at h ⊢
    split_ifs at h with hthread
    · rw [hcaller] at h
      cases h
    · exact h

lemma Apart.moves (h : Apart s) (hmoves : Moves s s' drops) : Apart s' := by
  cases hmoves with
  | stayed => exact h
  | turned thread caller _ hhand' =>
    exact h.of_at (fun p child hp => at_goTo_none hhand' hp) subset_rfl rfl
  | taken thread next session hslot hhand =>
    refine h.of_source (fun p => if p = .hand thread then .slot else p) ?_ ?_ subset_rfl rfl
    · intro p child hp
      cases p with
      | slot => cases hp
      | hand thread' =>
        simp only [At, goTo_hand] at hp
        by_cases hthread : thread' = thread
        · rw [if_pos hthread] at hp
          obtain rfl := Option.some.inj hp
          subst hthread
          simp [At, InSlot, hslot]
        · rw [if_neg hthread] at hp
          simpa [At, hthread] using hp
    · intro p q child hp hq heq
      have hp' : p ≠ .slot := fun h => by subst h; cases hp
      have hq' : q ≠ .slot := fun h => by subst h; cases hq
      split_ifs at heq with h₁ h₂ h₂
      · rw [h₁, h₂]
      · exact absurd heq.symm hq'
      · exact absurd heq hp'
      · exact heq
  | killed thread child next _ =>
    refine h.of_at (fun p child hp => ?_) (Finset.erase_subset _ _) rfl
    exact at_goTo_none (s := s.kill _) (hand_behindStop next) hp
  | spawned thread plan hhand =>
    have hnew : ∀ p child, (s.spawn thread plan true).At p child →
        s.At p child ∨ p = .hand thread ∧ child = s.spawned := by
      intro p child hp
      cases p with
      | slot => exact Or.inl hp
      | hand thread' =>
        simp only [spawn, At, if_true, goTo_hand] at hp ⊢
        split_ifs at hp with hthread
        · exact Or.inr ⟨by rw [hthread], (Option.some.inj hp).symm⟩
        · exact Or.inl hp
    refine ⟨fun p q child hp hq => ?_, fun p child hp => ?_, fun child hchild => ?_⟩
    · rcases hnew p child hp with hp | ⟨rfl, rfl⟩ <;> rcases hnew q _ hq with hq | ⟨rfl, hc⟩
      · exact h.eq_of_at p q child hp hq
      · have := h.at_lt p child hp
        omega
      · have := h.at_lt q _ hq
        omega
      · rfl
    · show child < s.spawned + 1
      rcases hnew p child hp with hp | ⟨-, rfl⟩
      · have := h.at_lt p child hp
        omega
      · omega
    · show child < s.spawned + 1
      rcases Finset.mem_insert.mp hchild with rfl | hchild
      · omega
      · have := h.running_lt child hchild
        omega
  | exited child =>
    refine h.of_at (fun p child hp => ?_) (Finset.erase_subset _ _) rfl
    cases p <;> exact hp
  | stored thread session hcaller =>
    refine h.of_source (fun p => if p = .slot then .hand thread else p) ?_ ?_ subset_rfl rfl
    · intro p child hp
      cases p with
      | slot =>
        obtain rfl := Option.some.inj hp
        simp only [At, if_true, hcaller]
        rfl
      | hand thread' =>
        simpa [At] using at_goTo_none (s := { s with slot := some session }) rfl hp
    · intro p q child hp hq heq
      have hfree : ∀ r, ({ s with slot := some session }.goTo thread .idle).At r child →
          r ≠ .hand thread := by
        rintro r hr rfl
        simp only [At, goTo_hand, if_true] at hr
        cases hr
      split_ifs at heq with h₁ h₂ h₂
      · rw [h₁, h₂]
      · exact absurd heq.symm (hfree q hq)
      · exact absurd heq (hfree p hp)
      · exact heq
  | cleared =>
    refine h.of_at (fun p child hp => ?_) subset_rfl rfl
    cases p with
    | slot => cases hp
    | hand thread => exact hp

/-! ### What a step leaves unsupervised -/

/-- Each child that was not killed is in the slot or held by its launch. -/
def Held (s : SessionSlot) : Prop := ∀ child, s.Unkilled child → s.InSlot child ∨ s.Launching child

/-- No other thread has taken the child. -/
def Spared (s : SessionSlot) (thread child : ℕ) : Prop :=
  ∀ thread', thread' ≠ thread → (s.caller thread').dying ≠ some child

/-- Another thread has just spawned the child. -/
def Born (s : SessionSlot) (thread child : ℕ) : Prop :=
  ∃ thread', thread' ≠ thread ∧ (s.caller thread').newborn = some child

/-- What one thread has to do with it. -/
lemma held_goTo (s : SessionSlot) (thread : ℕ) (caller : Caller) :
    Held (s.goTo thread caller) ↔ ∀ child ∈ s.running, caller.dying ≠ some child →
      s.Spared thread child → s.InSlot child ∨ caller.newborn = some child ∨
        s.Born thread child := by
  have hself : (s.goTo thread caller).caller thread = caller := Function.update_self ..
  have hother : ∀ thread', thread' ≠ thread →
      (s.goTo thread caller).caller thread' = s.caller thread' :=
    fun thread' hne => Function.update_of_ne hne _ _
  constructor
  · intro h child hrunning hdying hspared
    have hunkilled : (s.goTo thread caller).Unkilled child := by
      refine ⟨hrunning, fun thread' => ?_⟩
      by_cases hthread : thread' = thread
      · rwa [hthread, hself]
      · rw [hother thread' hthread]
        exact hspared thread' hthread
    rcases h child hunkilled with hslot | ⟨thread', hborn⟩
    · exact Or.inl hslot
    · by_cases hthread : thread' = thread
      · rw [hthread, hself] at hborn
        exact Or.inr (Or.inl hborn)
      · rw [hother thread' hthread] at hborn
        exact Or.inr (Or.inr ⟨thread', hthread, hborn⟩)
  · rintro h child ⟨hrunning, hdying⟩
    have hspared : s.Spared thread child := fun thread' hthread => by
      rw [← hother thread' hthread]
      exact hdying thread'
    rcases h child hrunning (hself ▸ hdying thread) hspared with hslot | hborn | hborn
    · exact Or.inl hslot
    · exact Or.inr ⟨thread, by rw [hself, hborn]⟩
    · obtain ⟨thread', hthread, hborn⟩ := hborn
      exact Or.inr ⟨thread', by rw [hother thread' hthread, hborn]⟩

lemma held_iff (s : SessionSlot) (thread : ℕ) :
    Held s ↔ ∀ child ∈ s.running, (s.caller thread).dying ≠ some child →
      s.Spared thread child → s.InSlot child ∨ (s.caller thread).newborn = some child ∨
        s.Born thread child := by
  have hself : s.goTo thread (s.caller thread) = s := by
    rw [goTo, Function.update_eq_self]
  rw [← held_goTo, hself]

lemma hand_eq_none {c : Caller} : c.hand = none ↔ c.dying = none ∧ c.newborn = none := by
  unfold Caller.hand
  cases c.dying <;> simp

lemma Apart.not_dying (h : Apart s) {child thread : ℕ} (hslot : s.InSlot child) :
    (s.caller thread).dying ≠ some child := by
  intro hdying
  have hat : s.At (.hand thread) child := by
    simp only [At, Caller.hand, hdying, Option.some_or]
  cases h.eq_of_at .slot (.hand thread) child hslot hat

lemma Apart.not_newborn (h : Apart s) {child thread : ℕ} (hslot : s.InSlot child) :
    (s.caller thread).newborn ≠ some child := by
  intro hborn
  have hat : s.At (.hand thread) child := by
    unfold At Caller.hand
    cases hcaller : s.caller thread <;> simp_all [Caller.dying, Caller.newborn]
  cases h.eq_of_at .slot (.hand thread) child hslot hat

/-- A step that drops what is in the slot leaves nothing unsupervised exactly if no child runs
there, and no other step leaves anything. -/
lemma Held.moves (h : Held s) (hapart : Apart s) (hmoves : Moves s s' drops) :
    Held s' ↔ (drops = true → s.Vacant) := by
  cases hmoves with
  | stayed => exact iff_of_true h (by simp)
  | turned thread caller hhand hhand' =>
    refine iff_of_true ?_ (by simp)
    obtain ⟨hdying, hborn⟩ := hand_eq_none.mp hhand
    obtain ⟨hdying', hborn'⟩ := hand_eq_none.mp hhand'
    rw [held_iff s thread, hdying, hborn] at h
    rw [held_goTo, hdying', hborn']
    exact h
  | taken thread next session hslot hhand =>
    refine iff_of_true ?_ (by simp)
    obtain ⟨hdying, hborn⟩ := hand_eq_none.mp hhand
    rw [held_iff s thread, hdying, hborn] at h
    rw [held_goTo]
    intro child hrunning hdying' hspared
    rcases h child hrunning (by simp) hspared with hin | hborn | hborn
    · rw [InSlot, hslot] at hin
      exact absurd hin hdying'
    · cases hborn
    · exact Or.inr (Or.inr hborn)
  | killed thread child next hcaller =>
    refine iff_of_true ?_ (by simp)
    obtain ⟨hdying, hborn⟩ := hand_eq_none.mp (hand_behindStop next)
    rw [held_iff s thread, hcaller] at h
    rw [held_goTo, hdying, hborn]
    intro child' hrunning _ hspared
    obtain ⟨hne, hrunning⟩ := Finset.mem_erase.mp hrunning
    exact h child' hrunning (fun heq => hne (Option.some.inj heq).symm) hspared
  | spawned thread plan hhand =>
    refine iff_of_true ?_ (by simp)
    obtain ⟨hdying, hborn⟩ := hand_eq_none.mp hhand
    rw [held_iff s thread, hdying, hborn] at h
    rw [spawn, if_pos rfl, held_goTo]
    intro child hrunning _ hspared
    rcases Finset.mem_insert.mp hrunning with rfl | hrunning
    · exact Or.inr (Or.inl rfl)
    · rcases h child hrunning (by simp) hspared with hin | hborn | hborn
      · exact Or.inl hin
      · cases hborn
      · exact Or.inr (Or.inr hborn)
  | exited child =>
    refine iff_of_true ?_ (by simp)
    rintro child' ⟨hrunning, hdying⟩
    exact h child' ⟨Finset.mem_of_mem_erase hrunning, hdying⟩
  | stored thread session hcaller =>
    rw [held_goTo, forall_prop_of_true rfl]
    constructor
    · intro h' child hin hrunning
      have hspared : s.Spared thread child := fun thread' _ => hapart.not_dying hin
      rcases h' child hrunning (by simp [Caller.dying]) hspared with hin' | hborn | hborn
      · have hborn : (s.caller thread).newborn = some child := by
          rw [hcaller]
          exact hin'
        exact hapart.not_newborn hin hborn
      · cases hborn
      · obtain ⟨thread', -, hborn⟩ := hborn
        exact hapart.not_newborn hin hborn
    · intro hvacant child hrunning _ hspared
      rw [held_iff s thread, hcaller] at h
      rcases h child hrunning (by simp [Caller.dying]) hspared with hin | hborn | hborn
      · exact absurd hrunning (hvacant child hin)
      · exact Or.inl hborn
      · exact Or.inr (Or.inr hborn)
  | cleared =>
    rw [forall_prop_of_true rfl]
    constructor
    · intro h' child hin hrunning
      rcases h' child ⟨hrunning, fun thread => hapart.not_dying hin⟩ with hin' | ⟨thread, hborn⟩
      · cases hin'
      · exact hapart.not_newborn hin hborn
    · rintro hvacant child ⟨hrunning, hdying⟩
      rcases h child ⟨hrunning, hdying⟩ with hin | hborn
      · exact absurd hrunning (hvacant child hin)
      · exact Or.inr hborn

lemma launches_of_newborn {c : Caller} {child : ℕ} (h : c.newborn = some child) :
    c.launches = true := by
  cases c with
  | storing session => rfl
  | _ => cases h

lemma supervised_iff_held : Supervised s ↔ Held s := by
  refine ⟨fun h => h.held, fun h => ?_⟩
  have hreached : (∀ thread, (s.caller thread).launches = false) → ∀ child, s.Unkilled child →
      s.InSlot child := by
    intro hnone child hchild
    rcases h child hchild with hin | ⟨thread, hborn⟩
    · exact hin
    · have := launches_of_newborn hborn
      rw [hnone thread] at this
      cases this
  refine ⟨h, hreached, fun hnone child child' hchild hchild' => ?_⟩
  have heq := (hreached hnone child hchild).symm.trans (hreached hnone child' hchild')
  exact Option.some.inj heq

/-! ### Runs -/

lemma apart_after (ops : List Op) : Apart (after ops) := by
  refine Trace.always (I := fun _ s => Apart s) ?_ fun before op hbefore => ?_
  · refine ⟨fun p q child hp hq => ?_, fun p child hp => ?_, fun child hchild => ?_⟩
    · cases p <;> cases hp
    · cases p <;> cases hp
    · cases hchild
  · obtain ⟨drops, hmoves, -⟩ := moves_step (after before) op
    exact hbefore.moves hmoves

/-- **At most one supervised child.** In every run of the threads each child that was not killed
is in the slot or held by its launch, and so with no launch in progress at most one runs and
Disconnect reaches it, exactly if no launch stores its child, and no failed look clears the slot,
while a child runs there. -/
theorem supervised_iff_guarded (ops : List Op) :
    Trace.Each (fun before => Guarded (after before)) ops ↔
      ∀ before, before <+: ops → Supervised (after before) := by
  refine Trace.each_iff (I := fun before => Supervised (after before)) ?_ ?_
  · refine supervised_iff_held.mpr fun child hchild => ?_
    cases hchild.1
  · intro before op _ _ hbefore
    obtain ⟨drops, hmoves, hguarded⟩ := moves_step (after before) op
    have hheld := supervised_iff_held.mp (hbefore before (List.prefix_refl _))
    rw [supervised_iff_held, hguarded, ← hheld.moves (apart_after before) hmoves, after,
      Trace.final_snoc]

/-- The poll thread dials back while the user's Connect spawns: both have found the slot empty. -/
def overlappingLaunches : List Op :=
  [.launch 0 ⟨"192.168.1.7:42110", false, some 7⟩, .launch 1 ⟨"192.168.1.9:42110", true, some 9⟩,
    .proceed 0 true, .proceed 1 true, .proceed 0 true, .proceed 1 true, .proceed 0 true,
    .proceed 1 true]

/-- Both calls have returned, and the child that was stored first runs on. -/
theorem overwritten_child_runs_on : ¬Supervised (after overlappingLaunches) := by
  intro h
  have hidle : ∀ thread, (after overlappingLaunches).caller thread = .idle := by
    rintro (_ | _ | thread) <;> rfl
  have hreached := h.reached (fun thread => by rw [hidle thread]; rfl) 0
    ⟨by decide, fun thread => by rw [hidle thread]; exact Option.some_ne_none 0 ∘ Eq.symm⟩
  revert hreached
  unfold InSlot
  decide

end SessionSlot

end TheKvm

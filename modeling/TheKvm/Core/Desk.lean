import TheKvm.Core.Grid

/-!
What the router is for, without how it decides: one desk, one cursor, and the screen that
has control. A step moves the cursor on that screen, hands control to another screen,
brings it home, or changes the arrangement.
-/

namespace TheKvm

/-- The screen `id` is in the layout and the point lies on it. -/
def Layout.Holds (l : Layout) (id : ScreenId) (p : ℕ × ℕ) : Prop :=
  ∃ s, l.screen id = some s ∧ p.1 < s.width ∧ p.2 < s.height

structure Desk where
  layout : Layout
  localScreen : ScreenId
  current : ScreenId
  active : Option ScreenId
  cursor : ℕ × ℕ
  /-- The last cursor of the local screen. -/
  home : ℕ × ℕ

namespace Desk

/-- The nearest point of a screen of this size. -/
def shrink (p : ℕ × ℕ) (width height : ℕ) : ℕ × ℕ := (min p.1 (width - 1), min p.2 (height - 1))

/-- One step of the desk, with the condition under which it keeps both cursors on their
screens. -/
inductive Step (d : Desk) : Desk → Prop → Prop
  | stay : Step d d True
  | move (p : ℕ × ℕ) (hp : d.layout.Holds d.current p) (ha : d.active ≠ none) :
    Step d { d with cursor := p } True
  | comeHome (p : ℕ × ℕ) (hp : d.layout.Holds d.localScreen p) :
    Step d { d with current := d.localScreen, active := none, cursor := p, home := p } True
  | leave (t : ScreenId) (p : ℕ × ℕ) (ht : t ≠ d.localScreen)
    (hs : ∃ s, d.layout.screen t = some s ∧ p.1 < s.width) :
    Step d { d with
        current := t, active := some t, cursor := p
        home := if d.active = none then d.cursor else d.home } (d.layout.Holds t p)
  | relayout (l : Layout) (p : ℕ × ℕ) (hl : l.Valid) (hp : l.Holds d.localScreen p)
    (ha : d.active = none) :
    Step d { d with layout := l, current := d.localScreen, cursor := p, home := p } True
  | resizeLocal (width height : ℕ) (hw : 0 < width ∧ 0 < height) :
    Step d { d with
        layout := d.layout.resized d.localScreen width height
        cursor := shrink d.cursor width height
        home := shrink d.home width height } True
  | resizePeer (id : ScreenId) (width height : ℕ) (hw : 0 < width ∧ 0 < height) :
    Step d { d with
        layout := d.layout.resized id width height
        cursor := if d.current = id then shrink d.cursor width height else d.cursor }
      (id = d.localScreen → d.home.1 < width ∧ d.home.2 < height)

/-- What holds of every desk: both screens are in a valid layout, the active remote is the
current screen whenever that is not the local one, and the cursor is within the columns of
its screen, on it while control is local. -/
structure Linked (d : Desk) : Prop where
  valid : d.layout.Valid
  localIn : ∃ s, d.layout.screen d.localScreen = some s
  column : ∃ s, d.layout.screen d.current = some s ∧ d.cursor.1 < s.width
  home_iff : d.active = none ↔ d.current = d.localScreen
  remote : ∀ t, d.active = some t → d.current = t
  inside : d.active = none → d.layout.Holds d.current d.cursor

/-- The cursors are on their screens. -/
structure Placed (d : Desk) : Prop where
  linked : d.Linked
  cursor : d.layout.Holds d.current d.cursor
  home : d.layout.Holds d.localScreen d.home

lemma shrink_lt (p : ℕ × ℕ) {width height : ℕ} (hw : 0 < width ∧ 0 < height) :
    (shrink p width height).1 < width ∧ (shrink p width height).2 < height := by
  simp only [shrink]
  omega

lemma shrink_le (p : ℕ × ℕ) (width height : ℕ) :
    (shrink p width height).1 ≤ p.1 ∧ (shrink p width height).2 ≤ p.2 := by
  simp only [shrink]
  omega

variable {l : Layout} {id j : ScreenId} {p : ℕ × ℕ} {width height : ℕ}

lemma holds_resized_self (hj : j = id) (hs : ∃ s, l.screen j = some s)
    (hp : p.1 < width ∧ p.2 < height) : (l.resized id width height).Holds j p := by
  subst hj
  obtain ⟨s, hs⟩ := hs
  exact ⟨s.resize width height, by rw [Layout.screen_resized, hs]; rfl, hp⟩

lemma holds_resized_ne (hj : j ≠ id) :
    (l.resized id width height).Holds j p ↔ l.Holds j p := by
  unfold Layout.Holds
  rw [Layout.screen_resized_ne id width height hj]

lemma screen_resized_some (hs : ∃ s, l.screen j = some s) :
    ∃ s, (l.resized id width height).screen j = some s := by
  by_cases hj : j = id
  · subst hj
    obtain ⟨s, hs⟩ := hs
    exact ⟨s.resize width height, by rw [Layout.screen_resized, hs]; rfl⟩
  · rwa [Layout.screen_resized_ne id width height hj]

end Desk

lemma Layout.Holds.mono {l : Layout} {id : ScreenId} {p q : ℕ × ℕ} (h : l.Holds id p)
    (hq : q.1 ≤ p.1 ∧ q.2 ≤ p.2) : l.Holds id q := by
  obtain ⟨s, hs, hx, hy⟩ := h
  exact ⟨s, hs, by omega, by omega⟩

lemma Layout.Holds.column {l : Layout} {id : ScreenId} {p : ℕ × ℕ} (h : l.Holds id p) :
    ∃ s, l.screen id = some s ∧ p.1 < s.width := by
  obtain ⟨s, hs, hx, -⟩ := h
  exact ⟨s, hs, hx⟩

namespace Desk

/-- **Every step keeps the links.** -/
theorem Step.linked {d d' : Desk} {safe : Prop} (hstep : Step d d' safe) (h : d.Linked) :
    d'.Linked := by
  cases hstep with
  | stay => exact h
  | move p hp ha =>
    exact ⟨h.valid, h.localIn, hp.column, h.home_iff, h.remote, fun hn => absurd hn ha⟩
  | comeHome p hp =>
    exact ⟨h.valid, h.localIn, hp.column, by simp, by simp, fun _ => hp⟩
  | leave t p ht hs =>
    refine ⟨h.valid, h.localIn, hs, ?_, ?_, ?_⟩
    · simp [ht]
    · simp
    · simp
  | relayout l p hl hp ha =>
    obtain ⟨s, hs⟩ := hp.column
    exact ⟨hl, ⟨s, hs.1⟩, hp.column, by simp [ha], by simp [ha], fun _ => hp⟩
  | resizeLocal width height hw =>
    have hlt := shrink_lt d.cursor hw
    have hle := shrink_le d.cursor width height
    refine ⟨Layout.resized_valid _ _ _ h.valid hw, screen_resized_some h.localIn, ?_,
      h.home_iff, h.remote, fun hn => ?_⟩
    · obtain ⟨s, hs, hx⟩ := h.column
      by_cases hc : d.current = d.localScreen
      · exact (holds_resized_self hc ⟨s, hs⟩ hlt).column
      · exact ⟨s, by rw [← hs]; exact Layout.screen_resized_ne _ _ _ hc,
          lt_of_le_of_lt hle.1 hx⟩
    · obtain ⟨s, hs, -⟩ := h.column
      exact holds_resized_self (h.home_iff.mp hn) ⟨s, hs⟩ hlt
  | resizePeer id width height hw =>
    have hlt := shrink_lt d.cursor hw
    obtain ⟨s, hs, hx⟩ := h.column
    refine ⟨Layout.resized_valid _ _ _ h.valid hw, screen_resized_some h.localIn, ?_,
      h.home_iff, h.remote, fun hn => ?_⟩
    · by_cases hc : d.current = id
      · simp only [if_pos hc]
        exact (holds_resized_self hc ⟨s, hs⟩ hlt).column
      · simp only [if_neg hc]
        exact ⟨s, by rw [← hs]; exact Layout.screen_resized_ne _ _ _ hc, hx⟩
    · by_cases hc : d.current = id
      · simp only [if_pos hc]
        exact holds_resized_self hc ⟨s, hs⟩ hlt
      · simp only [if_neg hc]
        exact (holds_resized_ne hc).mpr (h.inside hn)

/-- **A step keeps the cursors on their screens exactly under its condition.** -/
theorem Step.placed_iff {d d' : Desk} {safe : Prop} (hstep : Step d d' safe) (h : d.Placed) :
    d'.Placed ↔ safe := by
  have hl := hstep.linked h.linked
  cases hstep with
  | stay => simpa using h
  | move p hp ha => exact iff_true_intro ⟨hl, hp, h.home⟩
  | comeHome p hp => exact iff_true_intro ⟨hl, hp, hp⟩
  | leave t p ht hs =>
    refine ⟨fun hp => hp.cursor, fun hp => ⟨hl, hp, ?_⟩⟩
    show d.layout.Holds d.localScreen (if d.active = none then d.cursor else d.home)
    split_ifs with ha
    · exact h.linked.home_iff.mp ha ▸ h.linked.inside ha
    · exact h.home
  | relayout l p hl' hp ha => exact iff_true_intro ⟨hl, hp, hp⟩
  | resizeLocal width height hw =>
    refine iff_true_intro
      ⟨hl, ?_, holds_resized_self rfl h.linked.localIn (shrink_lt d.home hw)⟩
    by_cases hc : d.current = d.localScreen
    · obtain ⟨s, hs, -⟩ := h.linked.column
      exact holds_resized_self hc ⟨s, hs⟩ (shrink_lt d.cursor hw)
    · exact (holds_resized_ne hc).mpr (h.cursor.mono (shrink_le d.cursor width height))
  | resizePeer id width height hw =>
    constructor
    · rintro hp rfl
      obtain ⟨s, hs, hx, hy⟩ := hp.home
      obtain ⟨t, ht⟩ := h.linked.localIn
      rw [Layout.screen_resized, ht] at hs
      obtain rfl := Option.some.inj hs
      exact ⟨hx, hy⟩
    · intro hsafe
      refine ⟨hl, ?_, ?_⟩
      · obtain ⟨s, hs, -⟩ := h.linked.column
        by_cases hc : d.current = id
        · simp only [if_pos hc]
          exact holds_resized_self hc ⟨s, hs⟩ (shrink_lt d.cursor hw)
        · simp only [if_neg hc]
          exact (holds_resized_ne hc).mpr h.cursor
      · by_cases hc : d.localScreen = id
        · subst hc
          exact holds_resized_self rfl h.linked.localIn (hsafe rfl)
        · exact (holds_resized_ne hc).mpr h.home

end Desk

end TheKvm

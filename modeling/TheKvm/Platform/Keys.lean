import TheKvm.Core.Event
import TheKvm.Lib.Held
import Mathlib.Data.List.Pairwise
import Mathlib.Data.List.Range

/-!
Keys and buttons of the Linux input namespaces.

No two codes have one usage, so a usage names its key.
-/

namespace TheKvm

/-- `hid_from_evdev`. -/
def hidFromEvdev (code : UInt16) : Option HidUsage :=
  if 2 ≤ code ∧ code ≤ 11 then some (0x1e + (code - 2))
  else if 59 ≤ code ∧ code ≤ 68 then some (0x3a + (code - 59))
  else if 71 ≤ code ∧ code ≤ 73 then some (0x5f + (code - 71))
  else if 75 ≤ code ∧ code ≤ 77 then some (0x5c + (code - 75))
  else if 79 ≤ code ∧ code ≤ 81 then some (0x59 + (code - 79))
  else if 183 ≤ code ∧ code ≤ 194 then some (0x68 + (code - 183))
  else
    match code.toNat with
    | 1 => some 0x29 | 12 => some 0x2d | 13 => some 0x2e | 14 => some 0x2a
    | 15 => some 0x2b | 16 => some 0x14 | 17 => some 0x1a | 18 => some 0x08
    | 19 => some 0x15 | 20 => some 0x17 | 21 => some 0x1c | 22 => some 0x18
    | 23 => some 0x0c | 24 => some 0x12 | 25 => some 0x13 | 26 => some 0x2f
    | 27 => some 0x30 | 28 => some 0x28 | 29 => some 0xe0 | 30 => some 0x04
    | 31 => some 0x16 | 32 => some 0x07 | 33 => some 0x09 | 34 => some 0x0a
    | 35 => some 0x0b | 36 => some 0x0d | 37 => some 0x0e | 38 => some 0x0f
    | 39 => some 0x33 | 40 => some 0x34 | 41 => some 0x35 | 42 => some 0xe1
    | 43 => some 0x31 | 44 => some 0x1d | 45 => some 0x1b | 46 => some 0x06
    | 47 => some 0x19 | 48 => some 0x05 | 49 => some 0x11 | 50 => some 0x10
    | 51 => some 0x36 | 52 => some 0x37 | 53 => some 0x38 | 54 => some 0xe5
    | 55 => some 0x55 | 56 => some 0xe2 | 57 => some 0x2c | 58 => some 0x39
    | 69 => some 0x53 | 70 => some 0x47 | 74 => some 0x56 | 78 => some 0x57
    | 82 => some 0x62 | 83 => some 0x63 | 86 => some 0x64 | 87 => some 0x44
    | 88 => some 0x45 | 96 => some 0x58 | 98 => some 0x54 | 99 => some 0x46
    | 97 => some 0xe4 | 100 => some 0xe6 | 102 => some 0x4a | 103 => some 0x52
    | 104 => some 0x4b | 105 => some 0x50 | 106 => some 0x4f | 107 => some 0x4d
    | 108 => some 0x51 | 109 => some 0x4e | 110 => some 0x49 | 111 => some 0x4c
    | 113 => some 0x7f | 114 => some 0x81 | 115 => some 0x80 | 116 => some 0x66
    | 117 => some 0x67 | 128 => some 0x78 | 129 => some 0x79 | 131 => some 0x7a
    | 133 => some 0x7c | 135 => some 0x7d | 136 => some 0x7e | 137 => some 0x7b
    | 138 => some 0x75 | 139 => some 0x76 | 121 => some 0x85 | 122 => some 0x90
    | 123 => some 0x91 | 124 => some 0x89 | 119 => some 0x48 | 125 => some 0xe3
    | 126 => some 0xe7
    | _ => none

lemma lt_of_hidFromEvdev {code : UInt16} {usage : HidUsage}
    (h : hidFromEvdev code = some usage) : code.toNat < 195 := by
  unfold hidFromEvdev at h
  split_ifs at h
  all_goals first
    | (simp only [UInt16.le_iff_toNat_le, UInt16.reduceToNat] at *; omega)
    | skip
  split at h <;> first | omega | cases h

lemma usages_nodup :
    ((List.range 195).filterMap fun n => (hidFromEvdev (.ofNat n)).map UInt16.toNat).Nodup := by
  decide +kernel

/-- A usage names its code. -/
theorem hidFromEvdev_inj {code code' : UInt16} {usage : HidUsage}
    (h : hidFromEvdev code = some usage) (h' : hidFromEvdev code' = some usage) :
    code = code' := by
  have hpair := List.pairwise_filterMap.mp usages_nodup
  have hne : ∀ i j : ℕ, i < j → j < 195 → hidFromEvdev (.ofNat i) = some usage →
      hidFromEvdev (.ofNat j) ≠ some usage := by
    intro i j hij hj hi hj'
    have hget := List.pairwise_iff_getElem.mp hpair i j (by simp; omega) (by simpa) hij
    simp only [List.getElem_range] at hget
    exact hget usage.toNat (by rw [hi]; rfl) usage.toNat (by rw [hj']; rfl) rfl
  have hlt := lt_of_hidFromEvdev h
  have hlt' := lt_of_hidFromEvdev h'
  rw [← UInt16.ofNat_toNat (x := code)] at h
  rw [← UInt16.ofNat_toNat (x := code')] at h'
  rcases lt_trichotomy code.toNat code'.toNat with hc | hc | hc
  · exact absurd h' (hne _ _ hc hlt' h)
  · exact UInt16.toNat_inj.mp hc
  · exact absurd h (hne _ _ hc hlt h')

/-! ### Keys and buttons of a stream -/

/-- What an input stream holds and releases. -/
inductive KeyOrButton
  | key (usage : HidUsage)
  | button (button : MouseButton)
  deriving DecidableEq

/-- The key or button an event presses or releases. -/
def InputEvent.transition : InputEvent → Option (KeyOrButton × Bool)
  | .key event => some (.key event.usage, event.pressed)
  | .mouseButton button pressed => some (.button button, pressed)
  | _ => none

/-- What is held behind one more event. -/
def feel (held : Finset KeyOrButton) (event : InputEvent) : Finset KeyOrButton :=
  match event.transition with
  | some e => Held.turn held e
  | none => held

end TheKvm

import TheKvm.Core.Layout
import TheKvm.Lib.Proportion

/-!
Mapping a cursor coordinate from one span of pixels to another, in the widths of the code.

The product of two 32-bit numbers fits the 64 bits it is taken in, and the quotient is less than
the target span, so the cut to 32 bits loses nothing and the coordinate is a proportion.
-/

namespace TheKvm

inductive Axis
  | horizontal | vertical
  deriving DecidableEq

/-- The coordinate of a position along an axis. -/
def Axis.of {α : Type*} : Axis → α × α → α
  | .horizontal, p => p.1
  | .vertical, p => p.2

/-- `map_coordinate` with its machine integers: the product in 64 bits, the quotient cut to 32. -/
def mapCoordinateU32 (value sourceSpan targetSpan : UInt32) : UInt32 :=
  if sourceSpan ≤ 1 ∨ targetSpan ≤ 1 then 0
  else
    ((if value ≤ sourceSpan - 1 then value else sourceSpan - 1).toUInt64 *
      (targetSpan - 1).toUInt64 / (sourceSpan - 1).toUInt64).toUInt32

lemma mapCoordinate_eq {value sourceSpan targetSpan : ℕ} (hs : 2 ≤ sourceSpan)
    (ht : 2 ≤ targetSpan) (hv : value < sourceSpan) :
    mapCoordinate value sourceSpan targetSpan =
      proportion (sourceSpan - 1) (targetSpan - 1) value := by
  rw [mapCoordinate, if_neg (by omega), Nat.min_eq_left (by omega), proportion]

/-- The product fits 64 bits. -/
lemma product_lt (value span : UInt32) : value.toNat * (span - 1).toNat < 2 ^ 64 :=
  calc value.toNat * (span - 1).toNat ≤ (2 ^ 32 - 1) * (2 ^ 32 - 1) :=
        Nat.mul_le_mul (by have := value.toNat_lt; omega) (by have := (span - 1).toNat_lt; omega)
    _ < 2 ^ 64 := by norm_num

lemma toNat_sub_one {span : UInt32} (h : ¬span ≤ 1) : (span - 1).toNat = span.toNat - 1 := by
  have h1 : (1 : UInt32) ≤ span := by
    rw [UInt32.le_iff_toNat_le] at h ⊢
    change ¬span.toNat ≤ 1 at h
    change 1 ≤ span.toNat
    omega
  exact UInt32.toNat_sub_of_le _ _ h1

/-- **No step of the machine computation wraps around.** -/
theorem mapCoordinateU32_toNat (value sourceSpan targetSpan : UInt32) :
    (mapCoordinateU32 value sourceSpan targetSpan).toNat =
      mapCoordinate value.toNat sourceSpan.toNat targetSpan.toNat := by
  have hone : ∀ span : UInt32, span ≤ 1 ↔ span.toNat ≤ 1 := fun span => UInt32.le_iff_toNat_le
  rw [mapCoordinateU32, mapCoordinate]
  by_cases h : sourceSpan ≤ 1 ∨ targetSpan ≤ 1
  · have h' : sourceSpan.toNat ≤ 1 ∨ targetSpan.toNat ≤ 1 := by rwa [hone, hone] at h
    rw [if_pos h, if_pos h']
    rfl
  · have h' : ¬(sourceSpan.toNat ≤ 1 ∨ targetSpan.toNat ≤ 1) := by rwa [hone, hone] at h
    rw [if_neg h, if_neg h']
    obtain ⟨hs, ht⟩ := not_or.mp h
    set clamped := if value ≤ sourceSpan - 1 then value else sourceSpan - 1 with hclamped
    have hmin : clamped.toNat = min value.toNat (sourceSpan.toNat - 1) := by
      rw [hclamped, ← toNat_sub_one hs]
      split_ifs with hle
      · exact (Nat.min_eq_left (UInt32.le_iff_toNat_le.mp hle)).symm
      · rw [UInt32.le_iff_toNat_le] at hle
        exact (Nat.min_eq_right (by omega)).symm
    have hquotient : clamped.toNat * (targetSpan - 1).toNat / (sourceSpan - 1).toNat < 2 ^ 32 := by
      have hle : clamped.toNat ≤ (sourceSpan - 1).toNat := by
        rw [hmin, toNat_sub_one hs]
        exact Nat.min_le_right _ _
      calc clamped.toNat * (targetSpan - 1).toNat / (sourceSpan - 1).toNat
          ≤ (targetSpan - 1).toNat := Nat.div_le_of_le_mul (Nat.mul_le_mul_right _ hle)
        _ < 2 ^ 32 := UInt32.toNat_lt _
    rw [UInt64.toNat_toUInt32, UInt64.toNat_div, UInt64.toNat_mul, UInt32.toNat_toUInt64,
      UInt32.toNat_toUInt64, UInt32.toNat_toUInt64, Nat.mod_eq_of_lt (product_lt _ _),
      Nat.mod_eq_of_lt hquotient, hmin, toNat_sub_one hs, toNat_sub_one ht]

/-- The mapping of a span `a` to a span `b` keeps the order, the range and the end points, and is
nearly undone by the mapping of `b` to `a`. -/
structure Proportional (a b : UInt32) : Prop where
  mono : ∀ v w, v < w → w < a → mapCoordinateU32 v a b ≤ mapCoordinateU32 w a b
  lt : ∀ w, w < a → mapCoordinateU32 w a b < b
  first : mapCoordinateU32 0 a b = 0
  last : mapCoordinateU32 (a - 1) a b = b - 1
  self : ∀ v, v < a → mapCoordinateU32 v a a = v
  widening : a ≤ b → ∀ v, v < a →
    mapCoordinateU32 (mapCoordinateU32 v a b) b a = v ∨
      0 < v ∧ mapCoordinateU32 (mapCoordinateU32 v a b) b a = v - 1
  narrowing : b < a → ∀ v, v < a →
    mapCoordinateU32 (mapCoordinateU32 v a b) b a ≤ v ∧
      (v.toNat : ℚ) - 1 - (a.toNat - 1) / (b.toNat - 1) - 1 <
        (mapCoordinateU32 (mapCoordinateU32 v a b) b a).toNat
  product : ∀ v, v < a → v.toNat * (b - 1).toNat < 2 ^ 64
  result : ∀ v, v < a → (mapCoordinateU32 v a b).toNat = v.toNat * (b.toNat - 1) / (a.toNat - 1)

section

variable {a b v : UInt32}

lemma toNat_mapCoordinateU32 (ha : 2 ≤ a) (hb : 2 ≤ b) (hv : v < a) :
    (mapCoordinateU32 v a b).toNat = proportion (a.toNat - 1) (b.toNat - 1) v.toNat := by
  rw [mapCoordinateU32_toNat]
  exact mapCoordinate_eq ha hb hv

lemma mapCoordinateU32_lt (ha : 2 ≤ a) (hb : 2 ≤ b) (hv : v < a) :
    mapCoordinateU32 v a b < b := by
  have ha' : 2 ≤ a.toNat := ha
  have hb' : 2 ≤ b.toNat := hb
  have hv' : v.toNat < a.toNat := hv
  have hle : proportion (a.toNat - 1) (b.toNat - 1) v.toNat ≤ b.toNat - 1 :=
    proportion.le (by omega) (by omega)
  rw [UInt32.lt_iff_toNat_lt, toNat_mapCoordinateU32 ha hb hv]
  omega

lemma toNat_roundTrip (ha : 2 ≤ a) (hb : 2 ≤ b) (hv : v < a) :
    (mapCoordinateU32 (mapCoordinateU32 v a b) b a).toNat =
      proportion.roundTrip (a.toNat - 1) (b.toNat - 1) v.toNat := by
  rw [toNat_mapCoordinateU32 hb ha (mapCoordinateU32_lt ha hb hv), toNat_mapCoordinateU32 ha hb hv]
  rfl

end

/-- **Proportional mapping**: monotone, in range, nearly invertible, and exact in its integers. -/
theorem mapCoordinate_proportional (a b : UInt32) (ha : 2 ≤ a) (hb : 2 ≤ b) : Proportional a b := by
  have ha' : 2 ≤ a.toNat := ha
  have hb' : 2 ≤ b.toNat := hb
  have hA : 0 < a.toNat - 1 := by omega
  have hB : 0 < b.toNat - 1 := by omega
  have hsub : ∀ span : UInt32, 2 ≤ span.toNat → (span - 1).toNat = span.toNat - 1 :=
    fun span h => toNat_sub_one fun hle => by
      have : span.toNat ≤ 1 := hle
      omega
  exact
    { mono := fun v w hvw hw => by
        rw [UInt32.le_iff_toNat_le, toNat_mapCoordinateU32 ha hb (UInt32.lt_trans hvw hw),
          toNat_mapCoordinateU32 ha hb hw]
        exact proportion.mono _ _ (Nat.le_of_lt hvw)
      lt := fun w hw => mapCoordinateU32_lt ha hb hw
      first := by
        have h0 : (0 : UInt32) < a := Nat.lt_of_lt_of_le (by decide : 0 < 2) ha'
        rw [← UInt32.toNat_inj, toNat_mapCoordinateU32 ha hb h0]
        exact proportion.zero _ _
      last := by
        have hlt : a - 1 < a := by
          rw [UInt32.lt_iff_toNat_lt, hsub a ha']
          omega
        rw [← UInt32.toNat_inj, toNat_mapCoordinateU32 ha hb hlt, hsub a ha', hsub b hb']
        exact proportion.last hA _
      self := fun v hv => by
        rw [← UInt32.toNat_inj, toNat_mapCoordinateU32 ha ha hv]
        exact proportion.self hA _
      widening := fun hab v hv => by
        have hle : a.toNat ≤ b.toNat := hab
        rw [← UInt32.toNat_inj, ← UInt32.toNat_inj (a := mapCoordinateU32 _ b a) (b := v - 1),
          toNat_roundTrip ha hb hv]
        rcases proportion.back_cases (B := b.toNat - 1) hA (by omega) v.toNat with h | h
        · exact .inl h
        · have hpos : 0 < v.toNat := by omega
          have hone : (1 : UInt32) ≤ v := hpos
          have hprev : (v - 1).toNat = v.toNat - 1 := UInt32.toNat_sub_of_le _ _ hone
          refine .inr ⟨hpos, ?_⟩
          rw [hprev, proportion.roundTrip]
          omega
      narrowing := fun _ v hv => by
        have hback := proportion.lt_back hA hB v.toNat
        have ha1 : ((a.toNat - 1 : ℕ) : ℚ) = a.toNat - 1 := by
          rw [Nat.cast_sub (by omega), Nat.cast_one]
        have hb1 : ((b.toNat - 1 : ℕ) : ℚ) = b.toNat - 1 := by
          rw [Nat.cast_sub (by omega), Nat.cast_one]
        rw [ha1, hb1] at hback
        rw [UInt32.le_iff_toNat_le, toNat_roundTrip ha hb hv]
        refine ⟨proportion.roundTrip_le hB _, ?_⟩
        rw [proportion.roundTrip]
        linarith
      product := fun v _ => product_lt v b
      result := fun v hv => toNat_mapCoordinateU32 ha hb hv }

/-- The spans of two common screens. -/
theorem full_hd_proportional : (2 : UInt32) ≤ 1920 ∧ (2 : UInt32) ≤ 1366 ∧ Proportional 1920 1366 :=
  ⟨by decide, by decide, mapCoordinate_proportional 1920 1366 (by decide) (by decide)⟩

end TheKvm

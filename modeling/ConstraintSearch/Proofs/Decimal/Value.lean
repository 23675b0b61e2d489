import ConstraintSearch.Decimal.Arithmetic
import ConstraintSearch.Proofs.Text.Numeral
import Mathlib.Algebra.Order.Field.Power
import Mathlib.Data.Rat.Cast.Order
import Mathlib.Tactic.Positivity
import Mathlib.Tactic.Ring

/-!
# Values of decimal numbers

A decimal is a rational number that is written at some scale. The operations choose the scale of
their result and leave shortcuts for zeros and ones; here they are shown to be the operations of the
rational numbers. The order aligns scales only for numbers of the same size, which is right because
the size says between which powers of ten a number lies.
-/

namespace ConstraintSearch.Decimal

/-- The rational number that the decimal is. -/
def value (d : Decimal) : ℚ :=
  d.units * 10 ^ (-d.scale)

/-! ### Scales -/

theorem value_ofInt (i : Int) : (ofInt i).value = i := by
  simp [value, ofInt]

/-- Units at a greater scale count the same number. -/
theorem unitsAt_eq (d : Decimal) {scale : Int} (h : d.scale ≤ scale) :
    (d.unitsAt scale : ℚ) = d.value * 10 ^ scale := by
  obtain ⟨k, hk⟩ := Int.eq_ofNat_of_zero_le (Int.sub_nonneg_of_le h)
  obtain rfl : scale = d.scale + k := by omega
  rw [unitsAt, value, hk, Int.toNat_natCast, mul_assoc, ← zpow_add₀ (by norm_num),
    show -d.scale + (d.scale + k) = k by ring, zpow_natCast]
  push_cast
  rfl

theorem value_eq_zero_iff {d : Decimal} : d.value = 0 ↔ d.units = 0 := by
  rw [value, mul_eq_zero, or_iff_left (by positivity), Int.cast_eq_zero]

theorem value_pos_iff {d : Decimal} : 0 < d.value ↔ 0 < d.units := by
  rw [value, mul_pos_iff_of_pos_right (by positivity), Int.cast_pos]

theorem value_neg_iff {d : Decimal} : d.value < 0 ↔ d.units < 0 := by
  rw [← not_le, ← not_le, le_iff_eq_or_lt, le_iff_eq_or_lt, value_pos_iff, eq_comm,
    value_eq_zero_iff, eq_comm]

theorem isZero_iff {d : Decimal} : d.isZero ↔ d.value = 0 := by
  rw [isZero, beq_iff_eq, value_eq_zero_iff]

/-! ### Order -/

theorem abs_value (d : Decimal) : |d.value| = d.units.natAbs * 10 ^ (-d.scale) := by
  rw [value, abs_mul, abs_of_pos (by positivity : (0 : ℚ) < 10 ^ (-d.scale)), Nat.cast_natAbs,
    Int.cast_abs]

/-- The size says below which power of ten a number lies, and from which one on. -/
theorem abs_value_lt (d : Decimal) : |d.value| < 10 ^ d.size := by
  have hdigits : (d.units.natAbs : ℚ) < 10 ^ Text.digitCount d.units.natAbs := by
    exact_mod_cast Text.lt_pow_digitCount d.units.natAbs
  rw [abs_value, size, sub_eq_add_neg, zpow_add₀ (by norm_num), zpow_natCast]
  gcongr

theorem le_abs_value {d : Decimal} (h : d.units ≠ 0) : 10 ^ (d.size - 1) ≤ |d.value| := by
  have hdigits : (10 : ℚ) ^ (Text.digitCount d.units.natAbs - 1) ≤ d.units.natAbs := by
    exact_mod_cast Text.pow_digitCount_le (Int.natAbs_pos.2 h)
  have hpos : 0 < Text.digitCount d.units.natAbs := Nat.length_toDigits_pos
  have hsize : d.size - 1 = (Text.digitCount d.units.natAbs - 1 : ℕ) + -d.scale := by
    rw [size]
    omega
  rw [abs_value, hsize, zpow_add₀ (by norm_num), zpow_natCast]
  gcongr

/-- Of two numbers of different size the one of smaller size is smaller. -/
theorem abs_value_lt_of_size_lt {a b : Decimal} (hb : b.units ≠ 0) (h : a.size < b.size) :
    |a.value| < |b.value| :=
  calc |a.value| < 10 ^ a.size := a.abs_value_lt
    _ ≤ 10 ^ (b.size - 1) := zpow_le_zpow_right₀ (by norm_num) (by omega)
    _ ≤ |b.value| := le_abs_value hb

/-- The order of absolute values is that of the rational numbers. -/
theorem orderAbs_eq_compare {a b : Decimal} (ha : a.units ≠ 0) (hb : b.units ≠ 0) :
    a.orderAbs b = compare |a.value| |b.value| := by
  rw [orderAbs]
  rcases lt_trichotomy a.size b.size with h | h | h
  · rw [compare_lt_iff_lt.2 h, compare_lt_iff_lt.2 (abs_value_lt_of_size_lt hb h)]
    rfl
  · have hunits {d : Decimal} {s : Int} (hs : d.scale ≤ s) :
        ((d.unitsAt s).natAbs : ℚ) = |d.value| * 10 ^ s := by
      rw [Nat.cast_natAbs, Int.cast_abs, unitsAt_eq d hs, abs_mul,
        abs_of_pos (by positivity : (0 : ℚ) < 10 ^ s)]
    have hcast : StrictMono ((↑) : ℕ → ℚ) := Nat.strictMono_cast
    rw [compare_eq_iff_eq.2 h, Ordering.eq_then, ← cmp_eq_compare, ← cmp_eq_compare,
      ← hcast.cmp_map_eq, hunits (le_max_left _ _), hunits (le_max_right _ _),
      cmp_mul_pos_right (by positivity)]
  · rw [compare_gt_iff_gt.2 h, compare_gt_iff_gt.2 (abs_value_lt_of_size_lt ha h)]
    rfl

/-- Of two numbers of different sign the one of smaller sign is smaller. -/
theorem value_lt_of_sign_lt {a b : Decimal} (h : a.units.sign < b.units.sign) :
    a.value < b.value := by
  rcases lt_trichotomy a.units 0 with ha | ha | ha
  · rcases lt_or_ge b.units 0 with hb | hb
    · rw [Int.sign_eq_neg_one_of_neg ha, Int.sign_eq_neg_one_of_neg hb] at h
      exact absurd h (lt_irrefl _)
    · exact (value_neg_iff.2 ha).trans_le (not_lt.1 (mt value_neg_iff.1 (not_lt.2 hb)))
  · rw [ha, Int.sign_zero, Int.sign_pos_iff] at h
    rw [value_eq_zero_iff.2 ha]
    exact value_pos_iff.2 h
  · have hb := b.units.sign_trichotomy
    rw [Int.sign_eq_one_of_pos ha] at h
    omega

/-- The order of decimals is that of the rational numbers. -/
theorem order_eq_compare (a b : Decimal) : a.order b = compare a.value b.value := by
  rw [order]
  rcases lt_trichotomy a.units.sign b.units.sign with h | h | h
  · rw [compare_lt_iff_lt.2 h, compare_lt_iff_lt.2 (value_lt_of_sign_lt h)]
    rfl
  · rw [compare_eq_iff_eq.2 h, Ordering.eq_then]
    rcases lt_trichotomy a.units 0 with ha | ha | ha
    · have hb : b.units < 0 := by
        rwa [← Int.sign_eq_neg_one_iff_neg, ← h, Int.sign_eq_neg_one_iff_neg]
      -- Of two negative numbers the one with the greater absolute value is smaller.
      have hanti : StrictAnti (Neg.neg : ℚ → ℚ) := fun _ _ ↦ neg_lt_neg
      rw [if_neg ha.ne, if_neg ha.not_gt, orderAbs_eq_compare hb.ne ha.ne,
        abs_of_neg (value_neg_iff.2 ha), abs_of_neg (value_neg_iff.2 hb), ← cmp_eq_compare,
        hanti.cmp_map_eq, cmp_eq_compare]
    · have hb : b.units = 0 := by
        rwa [← Int.sign_eq_zero_iff_zero, ← h, Int.sign_eq_zero_iff_zero]
      rw [if_pos ha, value_eq_zero_iff.2 ha, value_eq_zero_iff.2 hb, compare_eq_iff_eq.2 rfl]
    · have hb : 0 < b.units := by
        rwa [← Int.sign_eq_one_iff_pos, ← h, Int.sign_eq_one_iff_pos]
      rw [if_neg ha.ne', if_pos ha, orderAbs_eq_compare ha.ne' hb.ne',
        abs_of_pos (value_pos_iff.2 ha), abs_of_pos (value_pos_iff.2 hb)]
  · rw [compare_gt_iff_gt.2 h, compare_gt_iff_gt.2 (value_lt_of_sign_lt h)]
    rfl

/-! ### Arithmetic -/

theorem value_neg (a : Decimal) : a.neg.value = -a.value := by
  simp [value, neg]

theorem value_add (a b : Decimal) : (a.add b).value = a.value + b.value := by
  have hscale : (10 : ℚ) ^ max a.scale b.scale * 10 ^ (-max a.scale b.scale) = 1 := by
    rw [← zpow_add₀ (by norm_num), add_neg_cancel, zpow_zero]
  calc (a.add b).value
      = (a.unitsAt (max a.scale b.scale) + b.unitsAt (max a.scale b.scale)) *
          10 ^ (-max a.scale b.scale) := by simp [value, add]
    _ = (a.value + b.value) * (10 ^ max a.scale b.scale * 10 ^ (-max a.scale b.scale)) := by
        rw [unitsAt_eq a (le_max_left _ _), unitsAt_eq b (le_max_right _ _)]
        ring
    _ = a.value + b.value := by rw [hscale, mul_one]

theorem value_sub (a b : Decimal) : (a.sub b).value = a.value - b.value := by
  rw [sub]
  split
  · next hb => rw [isZero_iff.1 hb, sub_zero]
  · split
    · next ha => rw [isZero_iff.1 ha, value_neg, zero_sub]
    · rw [value_add, value_neg, sub_eq_add_neg]

/-- A one that is recognised is one. -/
theorem value_of_isOne {a : Decimal} (h : a.isOne) : a.value = 1 := by
  simp only [isOne, Bool.and_eq_true, decide_eq_true_eq, beq_iff_eq] at h
  obtain ⟨⟨hscale, -⟩, hunits⟩ := h
  obtain ⟨k, hk⟩ := Int.eq_ofNat_of_zero_le hscale
  rw [value, hunits, hk, Int.toNat_natCast, zpow_neg, zpow_natCast]
  push_cast
  exact mul_inv_cancel₀ (by positivity)

theorem value_mul (a b : Decimal) : (a.mul b).value = a.value * b.value := by
  rw [mul]
  split
  · next ha => rw [value_of_isOne ha, one_mul]
  · split
    · next hb => rw [value_of_isOne hb, mul_one]
    · rw [value, value, value, neg_add, zpow_add₀ (by norm_num)]
      push_cast
      ring

end ConstraintSearch.Decimal

import ConstraintSearch.BinaryFloat.Magnitude
import Mathlib.Algebra.Order.Field.Power
import Mathlib.Algebra.Order.Floor.Ring
import Mathlib.Data.Int.Log
import Mathlib.Data.Rat.Floor
import Mathlib.Tactic.FieldSimp
import Mathlib.Tactic.Positivity
import Mathlib.Tactic.Ring

/-!
# Rounding

What rounding to a floating-point magnitude depends on, and what it leaves alone.

The exact result that is rounded is written as `n / d * 2 ^ k`, and one number can be written
so in many ways. `round?_congr_value` says that it does not matter in which, and
`round?_of_value_eq` that a number which is a magnitude is rounded to that magnitude. The binary
logarithm from which the exponent is found is the one of the rational number `n / d`, which makes
both easy.
-/

namespace ConstraintSearch

/-! ### Quotients -/

/-- A factor common to both numbers does not change the rounded quotient. -/
theorem roundQuotient_mul_right (n d : Nat) {c : Nat} (hc : 0 < c) :
    roundQuotient (n * c) (d * c) = roundQuotient n d := by
  have hlt (a b : Nat) : 2 * (a * c) < b * c ↔ 2 * a < b := by
    rw [← Nat.mul_assoc, Nat.mul_lt_mul_right hc]
  have hgt (a b : Nat) : b * c < 2 * (a * c) ↔ b < 2 * a := by
    rw [← Nat.mul_assoc, Nat.mul_lt_mul_right hc]
  simp only [roundQuotient, Nat.mul_div_mul_right n d hc, Nat.mul_mod_mul_right, hlt, hgt]

/-- Equal quotients are rounded alike. -/
theorem roundQuotient_congr {n d n' d' : Nat} (hd : 0 < d) (hd' : 0 < d')
    (h : n * d' = n' * d) : roundQuotient n d = roundQuotient n' d' := by
  rw [← roundQuotient_mul_right n d hd', h, Nat.mul_comm d d', roundQuotient_mul_right n' d' hd]

/-- A whole quotient is not rounded. -/
theorem roundQuotient_mul_self (q : Nat) {d : Nat} (hd : 0 < d) :
    roundQuotient (q * d) d = q := by
  simp [roundQuotient, Nat.mul_div_cancel q hd, hd]

/-- A quotient below one half is rounded to zero. -/
theorem roundQuotient_eq_zero {n d : Nat} (h : 2 * n < d) : roundQuotient n d = 0 := by
  have hn : n < d := by omega
  simp [roundQuotient, Nat.div_eq_of_lt hn, Nat.mod_eq_of_lt hn, h]

/-- A quotient that is scaled by a power of two is a quotient again. -/
theorem exists_roundQuotient_shift (n : Nat) {d : Nat} (hd : 0 < d) (shift : Int) :
    ∃ a b : Nat, 0 < b ∧ (a : ℚ) / b = n / d * 2 ^ shift ∧
      (if 0 ≤ shift then roundQuotient (n <<< shift.toNat) d
        else roundQuotient n (d <<< (-shift).toNat)) = roundQuotient a b := by
  split
  · next hs =>
    obtain ⟨i, rfl⟩ := Int.eq_ofNat_of_zero_le hs
    refine ⟨_, d, hd, ?_, rfl⟩
    rw [Int.toNat_natCast, Nat.shiftLeft_eq, zpow_natCast]
    push_cast
    ring
  · next hs =>
    obtain ⟨i, hi⟩ := Int.eq_ofNat_of_zero_le (show 0 ≤ -shift by omega)
    obtain rfl : shift = -(i : ℤ) := by omega
    refine ⟨n, _, ?_, ?_, rfl⟩
    · rw [Nat.shiftLeft_eq]
      positivity
    · rw [neg_neg, Int.toNat_natCast, Nat.shiftLeft_eq, zpow_neg, zpow_natCast]
      push_cast
      rw [← div_div, div_eq_mul_inv (n / d : ℚ)]

/-- A quotient that is whole once it is scaled by a power of two is not rounded. -/
theorem roundQuotient_shift {n d q : Nat} {shift : Int} (hd : 0 < d)
    (h : (n : ℚ) * 2 ^ shift = q * d) :
    (if 0 ≤ shift then roundQuotient (n <<< shift.toNat) d
      else roundQuotient n (d <<< (-shift).toNat)) = q := by
  obtain ⟨a, b, hb, hab, hround⟩ := exists_roundQuotient_shift n hd shift
  have hb' : (b : ℚ) ≠ 0 := by exact_mod_cast hb.ne'
  have hd' : (d : ℚ) ≠ 0 := by exact_mod_cast hd.ne'
  have hwhole : a = q * b := by
    rw [div_mul_eq_mul_div, h, mul_div_cancel_right₀ _ hd', div_eq_iff hb'] at hab
    exact_mod_cast hab
  rw [hround, hwhole, roundQuotient_mul_self q hb]

/-! ### The binary logarithm of a ratio -/

theorem log_mul_zpow {q : ℚ} (hq : 0 < q) (k : Int) :
    Int.log 2 (q * 2 ^ k) = Int.log 2 q + k := by
  have h2 : (0 : ℚ) < 2 ^ k := by positivity
  refine eq_of_forall_le_iff fun l ↦ ?_
  rw [← sub_le_iff_le_add, ← Int.zpow_le_iff_le_log one_lt_two hq,
    ← Int.zpow_le_iff_le_log one_lt_two (mul_pos hq h2), Nat.cast_ofNat,
    zpow_sub₀ (by norm_num), div_le_iff₀ h2]

/-- `2 ^ l ≤ n / d`, in integers. -/
private theorem reached_iff {n d : Nat} (hd : 0 < d) (l : Int) :
    (if 0 ≤ l then d <<< l.toNat ≤ n else d ≤ n <<< (-l).toNat) ↔
      ((2 : ℕ) : ℚ) ^ l ≤ (n : ℚ) / d := by
  have hd' : (0 : ℚ) < d := by exact_mod_cast hd
  split
  · next h =>
    obtain ⟨m, rfl⟩ := Int.eq_ofNat_of_zero_le h
    rw [le_div_iff₀ hd', Nat.shiftLeft_eq, mul_comm]
    norm_cast
  · next h =>
    obtain ⟨m, hm⟩ := Int.eq_ofNat_of_zero_le (show 0 ≤ -l by omega)
    obtain rfl : l = -(m : ℤ) := by omega
    have h2 : (0 : ℚ) < ((2 : ℕ) : ℚ) ^ m := by positivity
    rw [le_div_iff₀ hd', Nat.shiftLeft_eq, zpow_neg, zpow_natCast, inv_mul_le_iff₀ h2, mul_comm]
    norm_cast
    simp

/-- The integer found is the binary logarithm of the ratio. -/
theorem ratioLog2_eq_log {n d : Nat} (hn : 0 < n) (hd : 0 < d) :
    ratioLog2 n d = Int.log 2 ((n : ℚ) / d) := by
  have hn' : (0 : ℚ) < n := by exact_mod_cast hn
  have hd' : (0 : ℚ) < d := by exact_mod_cast hd
  have hpos : (0 : ℚ) < (n : ℚ) / d := by positivity
  have hn₁ : (2 : ℚ) ^ n.log2 ≤ n := by exact_mod_cast Nat.log2_self_le hn.ne'
  have hn₂ : (n : ℚ) < 2 ^ (n.log2 + 1) := by exact_mod_cast Nat.lt_log2_self
  have hd₁ : (2 : ℚ) ^ d.log2 ≤ d := by exact_mod_cast Nat.log2_self_le hd.ne'
  have hd₂ : (d : ℚ) < 2 ^ (d.log2 + 1) := by exact_mod_cast Nat.lt_log2_self
  have hlow : (n.log2 : ℤ) - d.log2 - 1 ≤ Int.log 2 ((n : ℚ) / d) := by
    rw [← Int.zpow_le_iff_le_log one_lt_two hpos]
    calc ((2 : ℕ) : ℚ) ^ ((n.log2 : ℤ) - d.log2 - 1)
        = 2 ^ n.log2 / 2 ^ (d.log2 + 1) := by
          rw [sub_sub, zpow_sub₀ (by norm_num)]
          norm_cast
      _ ≤ n / d := div_le_div₀ hn'.le hn₁ hd' hd₂.le
  have hhigh : Int.log 2 ((n : ℚ) / d) < (n.log2 : ℤ) - d.log2 + 1 := by
    rw [← Int.lt_zpow_iff_log_lt one_lt_two hpos]
    calc (n : ℚ) / d < 2 ^ (n.log2 + 1) / 2 ^ d.log2 :=
          div_lt_div₀ hn₂ hd₁ (by positivity) (by positivity)
      _ = ((2 : ℕ) : ℚ) ^ ((n.log2 : ℤ) - d.log2 + 1) := by
          rw [sub_add_eq_add_sub, zpow_sub₀ (by norm_num)]
          norm_cast
  unfold ratioLog2
  simp only [reached_iff hd, Int.zpow_le_iff_le_log one_lt_two hpos]
  split <;> omega

namespace Magnitude

variable {w : Width}

/-! ### Rounding -/

/-- The magnitude with the parts of a given one is that one. -/
theorem ofParts?_parts (m : Magnitude w) : ofParts? w m.significand m.exponent = some m := by
  rw [ofParts?, dif_pos ⟨m.significand_lt, m.normal, m.exponent_le⟩]

/-- Equal numbers are rounded to the same magnitude, however they are written. -/
theorem round?_congr_value {n d n' d' : Nat} {k k' : Int} (hd : 0 < d) (hd' : 0 < d')
    (h : (n : ℚ) / d * 2 ^ k = n' / d' * 2 ^ k') : round? w n d k = round? w n' d' k' := by
  have hd₀ : (0 : ℚ) < d := by exact_mod_cast hd
  have hd₀' : (0 : ℚ) < d' := by exact_mod_cast hd'
  rcases Nat.eq_zero_or_pos n with rfl | hn
  · have hz : (n' : ℚ) / d' = 0 := by
      simpa [(zpow_pos (two_pos : (0 : ℚ) < 2) k').ne', hd₀'.ne'] using h.symm
    obtain rfl : n' = 0 := by
      rw [div_eq_zero_iff, or_iff_left hd₀'.ne'] at hz
      exact_mod_cast hz
    rw [round?, round?, if_pos rfl, if_pos rfl]
  · have hq : (0 : ℚ) < (n : ℚ) / d := div_pos (by exact_mod_cast hn) hd₀
    have hq' : (0 : ℚ) < (n' : ℚ) / d' := by
      refine pos_of_mul_pos_left ?_ (zpow_pos (two_pos : (0 : ℚ) < 2) k').le
      rw [← h]
      positivity
    have hn' : 0 < n' := by
      rw [div_pos_iff_of_pos_right hd₀'] at hq'
      exact_mod_cast hq'
    -- Both numbers have the same logarithm, so the same exponent is found for both.
    have hlog : ratioLog2 n d + k = ratioLog2 n' d' + k' := by
      rw [ratioLog2_eq_log hn hd, ratioLog2_eq_log hn' hd', ← log_mul_zpow hq,
        ← log_mul_zpow hq', h]
    simp only [round?, if_neg hn.ne', if_neg hn'.ne', hlog]
    generalize (ratioLog2 n' d' + k' + w.unitExponent - (w.precision - 1)).toNat = e
    obtain ⟨a, b, hb, hab, hsig⟩ := exists_roundQuotient_shift n hd (k + w.unitExponent - e)
    obtain ⟨a', b', hb', hab', hsig'⟩ :=
      exists_roundQuotient_shift n' hd' (k' + w.unitExponent - e)
    have hsame : roundQuotient a b = roundQuotient a' b' := by
      have hratio : (a : ℚ) / b = a' / b' := by
        rw [hab, hab', add_sub_assoc, add_sub_assoc, zpow_add₀ (by norm_num),
          zpow_add₀ (by norm_num), ← mul_assoc, ← mul_assoc, h]
      rw [div_eq_div_iff (by exact_mod_cast hb.ne') (by exact_mod_cast hb'.ne')] at hratio
      exact roundQuotient_congr hb hb' (by exact_mod_cast hratio)
    rw [hsig, hsig', hsame]

/-- The number that a magnitude is. -/
def value (m : Magnitude w) : ℚ :=
  m.significand * 2 ^ ((m.exponent : ℤ) - w.unitExponent)

theorem eq_zero_of_significand {m : Magnitude w} (h : m.significand = 0) : m = zero w := by
  obtain ⟨sig, exp, hlt, hnormal, hle⟩ := m
  obtain rfl : sig = 0 := h
  obtain rfl : exp = 0 := hnormal.resolve_right (Nat.not_le.2 (Nat.two_pow_pos _))
  rfl

/-- The exponent that rounding finds for the value of a magnitude is the one it has. -/
private theorem exponent_of_value {n d : Nat} {k : Int} {m : Magnitude w} (hn : 0 < n)
    (hd : 0 < d) (h : (n : ℚ) / d = m.significand * 2 ^ ((m.exponent : ℤ) - w.unitExponent - k)) :
    (ratioLog2 n d + k + w.unitExponent - (w.precision - 1)).toNat = m.exponent := by
  have hn' : (0 : ℚ) < n := by exact_mod_cast hn
  have hd' : (0 : ℚ) < d := by exact_mod_cast hd
  have hpos : (0 : ℚ) < (n : ℚ) / d := by positivity
  have hp := w.precision_pos
  rw [ratioLog2_eq_log hn hd]
  have hhigh : Int.log 2 ((n : ℚ) / d) < w.precision + (m.exponent - w.unitExponent - k) := by
    rw [← Int.lt_zpow_iff_log_lt one_lt_two hpos, h, zpow_add₀ (by norm_num), zpow_natCast]
    have hlt : (m.significand : ℚ) < 2 ^ w.precision := by exact_mod_cast m.significand_lt
    exact mul_lt_mul_of_pos_right hlt (by positivity)
  rcases m.normal with he | hs
  · -- The significand may be short here, so the logarithm is only bounded from above; the
    -- exponent would be negative and becomes zero.
    rw [he] at hhigh ⊢
    omega
  · have hlow : ((w.precision - 1 : ℕ) : ℤ) + (m.exponent - w.unitExponent - k) ≤
        Int.log 2 ((n : ℚ) / d) := by
      rw [← Int.zpow_le_iff_le_log one_lt_two hpos, h, zpow_add₀ (by norm_num), zpow_natCast]
      have hle : ((2 ^ (w.precision - 1) : ℕ) : ℚ) ≤ m.significand := by exact_mod_cast hs
      push_cast at hle ⊢
      exact mul_le_mul_of_nonneg_right hle (by positivity)
    omega

/-- A number that is a magnitude is rounded to it, however the number is written. -/
theorem round?_of_value_eq {n d : Nat} {k : Int} {m : Magnitude w} (hd : 0 < d)
    (h : (n : ℚ) / d * 2 ^ k = m.value) : round? w n d k = some m := by
  have hd' : (0 : ℚ) < d := by exact_mod_cast hd
  rcases Nat.eq_zero_or_pos n with rfl | hn
  · have hs : m.significand = 0 := by
      have hz : (m.significand : ℚ) * 2 ^ ((m.exponent : ℤ) - w.unitExponent) = 0 := by
        simpa [value] using h.symm
      exact_mod_cast (mul_eq_zero.1 hz).resolve_right (by positivity)
    rw [round?, if_pos rfl, eq_zero_of_significand hs]
  · have hq : (n : ℚ) / d = m.significand * 2 ^ ((m.exponent : ℤ) - w.unitExponent - k) := by
      rw [zpow_sub₀ (by norm_num), ← mul_div_assoc, eq_div_iff (by positivity)]
      exact h
    have hscaled : (n : ℚ) * 2 ^ (k + w.unitExponent - m.exponent) = m.significand * d := by
      rw [div_eq_iff hd'.ne'] at hq
      rw [hq, mul_right_comm, mul_assoc (m.significand : ℚ), ← zpow_add₀ (by norm_num)]
      rw [show (m.exponent : ℤ) - w.unitExponent - k + (k + w.unitExponent - m.exponent) = 0
        by ring, zpow_zero, mul_one]
    simp only [round?, if_neg hn.ne', exponent_of_value hn hd hq,
      roundQuotient_shift hd hscaled, if_neg (Nat.ne_of_lt m.significand_lt), ofParts?_parts]

/-- A number whose significand fits the precision is a magnitude, unless it is out of range. -/
theorem exists_value_eq {n : Nat} {k : Int} (hn : n ≠ 0) (h : n.log2 ≤ w.precision - 1)
    (hleast : (w.precision - 1 : ℕ) ≤ k + w.unitExponent + n.log2)
    (hgreatest : k + w.unitExponent + n.log2 ≤ w.topExponent + (w.precision - 1 : ℕ)) :
    ∃ m : Magnitude w, m.value = n * 2 ^ k := by
  have hp := w.precision_pos
  have hlow := Nat.mul_le_mul_right (2 ^ (w.precision - 1 - n.log2)) (Nat.log2_self_le hn)
  have hhigh := Nat.mul_lt_mul_of_pos_right (Nat.lt_log2_self (n := n))
    (show 0 < 2 ^ (w.precision - 1 - n.log2) by positivity)
  rw [← pow_add, show n.log2 + (w.precision - 1 - n.log2) = w.precision - 1 by omega] at hlow
  rw [← pow_add, show n.log2 + 1 + (w.precision - 1 - n.log2) = w.precision by omega] at hhigh
  obtain ⟨e, he⟩ := Int.eq_ofNat_of_zero_le (Int.sub_nonneg_of_le hleast)
  refine ⟨⟨n * 2 ^ (w.precision - 1 - n.log2), e, hhigh, .inr hlow, by omega⟩, ?_⟩
  have hexp : (e : ℤ) - w.unitExponent = k - (w.precision - 1 - n.log2 : ℕ) := by omega
  rw [value, hexp, zpow_sub₀ two_ne_zero, zpow_natCast, Nat.cast_mul, Nat.cast_pow, Nat.cast_two]
  field_simp

/-! ### Out of range -/

/-- What is not below the power of two after the greatest magnitude is rounded to none. -/
theorem round?_eq_none {n d : Nat} (hd : 0 < d)
    (h : ((2 : ℕ) : ℚ) ^ ((w.topExponent : ℤ) + w.precision - w.unitExponent) ≤ (n : ℚ) / d) :
    round? w n d 0 = none := by
  have hd' : (0 : ℚ) < d := by exact_mod_cast hd
  have hpos : (0 : ℚ) < (n : ℚ) / d := lt_of_lt_of_le (by positivity) h
  have hn : 0 < n := by
    rw [lt_div_iff₀ hd', zero_mul] at hpos
    exact_mod_cast hpos
  have hlog := (Int.zpow_le_iff_le_log one_lt_two hpos).1 h
  have he : w.topExponent <
      (ratioLog2 n d + 0 + w.unitExponent - (w.precision - 1)).toNat := by
    rw [ratioLog2_eq_log hn hd]
    omega
  -- A significand that is rounded up only makes the exponent greater.
  have hnone (sig exp : Nat) (hexp : w.topExponent < exp) : ofParts? w sig exp = none :=
    dif_neg fun hparts ↦ Nat.not_le.2 hexp hparts.2.2
  simp only [round?, if_neg hn.ne', hnone _ _ he, hnone _ _ (Nat.lt_succ_of_lt he), ite_self]

/-- What is below half a unit is rounded to zero. -/
theorem round?_eq_zero {n d : Nat} (h : 2 * n * 2 ^ w.unitExponent < d) :
    round? w n d 0 = some (zero w) := by
  rcases Nat.eq_zero_or_pos n with rfl | hn
  · simp [round?]
  · have hd : 0 < d := by omega
    have hn' : (0 : ℚ) < n := by exact_mod_cast hn
    have hd' : (0 : ℚ) < d := by exact_mod_cast hd
    have hpos : (0 : ℚ) < (n : ℚ) / d := by positivity
    have hlog : Int.log 2 ((n : ℚ) / d) < -(w.unitExponent : ℤ) := by
      rw [← Int.lt_zpow_iff_log_lt one_lt_two hpos, div_lt_iff₀ hd', zpow_neg, zpow_natCast,
        lt_inv_mul_iff₀ (by positivity)]
      have hle : 2 ^ w.unitExponent * n ≤ 2 * n * 2 ^ w.unitExponent := by
        rw [Nat.mul_comm, Nat.mul_assoc]
        omega
      exact_mod_cast lt_of_le_of_lt hle h
    have he : (ratioLog2 n d + 0 + w.unitExponent - (w.precision - 1)).toNat = 0 := by
      have hp := w.precision_pos
      rw [ratioLog2_eq_log hn hd]
      omega
    have hsig : roundQuotient (n <<< w.unitExponent) d = 0 := by
      refine roundQuotient_eq_zero ?_
      rwa [Nat.shiftLeft_eq, ← Nat.mul_assoc]
    have hp : (0 : Nat) ≠ 2 ^ w.precision := (Nat.two_pow_pos _).ne
    have hunit : (0 : ℤ) ≤ w.unitExponent := Int.natCast_nonneg _
    simp only [round?, if_neg hn.ne', he, Nat.cast_zero, zero_add, sub_zero, if_pos hunit,
      Int.toNat_natCast, hsig, if_neg hp]
    exact ofParts?_parts (zero w)

end Magnitude

end ConstraintSearch

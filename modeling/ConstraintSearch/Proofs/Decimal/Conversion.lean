import ConstraintSearch.BinaryFloat.Conversion
import ConstraintSearch.Decimal.Conversion
import ConstraintSearch.Proofs.BinaryFloat.Rounding
import ConstraintSearch.Proofs.Decimal.Value

/-!
# Floating-point numbers as decimals

Nothing is lost on the way from a finite floating-point number to a decimal. A narrow number is a
wide one first, and the powers of two that are dropped from the significand on the way to a decimal
are as many as divide it, so that what is left is still whole.
-/

namespace ConstraintSearch

variable {w : Width}

/-! ### Wide numbers -/

/-- Every magnitude is a wide one. -/
theorem Magnitude.exists_wide (m : Magnitude w) : ∃ n : Magnitude .w64, n.value = m.value := by
  cases w with
  | w64 => exact ⟨m, rfl⟩
  | w32 =>
    rcases eq_or_ne m.significand 0 with hm | hm
    · exact ⟨zero .w64, by simp [value, zero, hm]⟩
    · have hlog : m.significand.log2 < 24 := (Nat.log2_lt hm).2 m.significand_lt
      have hexp : m.exponent ≤ 253 := m.exponent_le
      refine exists_value_eq hm ?_ ?_ ?_
      · show m.significand.log2 ≤ 52
        omega
      · show (52 : ℤ) ≤ m.exponent - 149 + 1074 + m.significand.log2
        omega
      · show (m.exponent - 149 + 1074 + m.significand.log2 : ℤ) ≤ 2045 + 52
        omega

namespace BinaryFloat

/-- The rational number that a floating-point number is, if it is finite. -/
def rational? : BinaryFloat w → Option ℚ
  | .nan => none
  | .infinite _ => none
  | .finite s m => some (if s then -m.value else m.value)

/-- A number stays the same when it becomes a wide one. -/
theorem rational?_toWidth (x : BinaryFloat w) : (x.toWidth .w64).rational? = x.rational? := by
  by_cases h : w = .w64
  · subst h
    rw [toWidth_self]
  · unfold toWidth
    rw [dif_neg h]
    cases x with
    | nan => rfl
    | infinite s => rfl
    | finite s m =>
      obtain ⟨n, hn⟩ := m.exists_wide
      have hround : Magnitude.round? .w64 m.significand 1 ((m.exponent : ℤ) - w.unitExponent) =
          some n := by
        refine Magnitude.round?_of_value_eq one_pos ?_
        rw [hn, Nat.cast_one, div_one, Magnitude.value]
      show (ofRatio .w64 s m.significand 1 _).rational? = _
      rw [ofRatio, hround]
      show some (if s then -n.value else n.value) = _
      rw [hn]
      rfl

end BinaryFloat

/-! ### Decimals -/

namespace Decimal

theorem twosUpTo_le (limit n : Nat) : twosUpTo limit n ≤ limit := by
  fun_induction twosUpTo limit n <;> omega

/-- As many twos as are counted divide the number. -/
theorem two_pow_twosUpTo_dvd (limit n : Nat) : 2 ^ twosUpTo limit n ∣ n := by
  fun_induction twosUpTo limit n with
  | case1 n => exact one_dvd n
  | case2 limit n heven ih =>
    obtain ⟨k, rfl⟩ := Nat.dvd_of_mod_eq_zero heven
    rw [Nat.mul_div_cancel_left k two_pos] at ih ⊢
    rw [pow_succ']
    exact Nat.mul_dvd_mul_left 2 ih
  | case3 limit n hodd => exact one_dvd n

/-- Twos that divide the significand can be dropped together with as many binary places; those that
are left become decimal places. -/
theorem drop_twos {n places dropped : Nat} (hle : dropped ≤ places) (hdvd : 2 ^ dropped ∣ n) :
    ((n / 2 ^ dropped * 5 ^ (places - dropped) : ℕ) : ℚ) * 10 ^ (-((places : ℤ) - dropped)) =
      n * 2 ^ (-(places : ℤ)) := by
  obtain ⟨kept, rfl⟩ := Nat.exists_eq_add_of_le hle
  obtain ⟨q, rfl⟩ := hdvd
  have hscale : -(((dropped + kept : ℕ) : ℤ) - dropped) = -(kept : ℤ) := by omega
  rw [hscale, Nat.mul_div_cancel_left q (by positivity), Nat.add_sub_cancel_left, zpow_neg,
    zpow_neg, zpow_natCast, zpow_natCast, show (10 : ℚ) = 2 * 5 by norm_num, mul_pow, pow_add]
  push_cast
  field_simp

/-- The decimal of a magnitude is that number. -/
theorem value_ofMagnitude (s : Bool) (m : Magnitude w) :
    (ofMagnitude s m).value = if s then -m.value else m.value := by
  have hsigned {units : Nat} {scale : Int} (h : (units : ℚ) * 10 ^ (-scale) = m.value) :
      value ⟨if s then -(units : Int) else units, scale⟩ = if s then -m.value else m.value := by
    rw [← h]
    cases s <;> simp [value]
  rw [ofMagnitude]
  dsimp only
  split
  · next hzero =>
    have hm : m.value = 0 := by simp [Magnitude.value, eq_of_beq hzero]
    rw [value_ofInt, hm]
    simp
  · split
    · next hexp =>
      obtain ⟨k, hk⟩ := Nat.exists_eq_add_of_le hexp
      refine hsigned ?_
      rw [hk, Nat.add_sub_cancel_left, Nat.shiftLeft_eq, Magnitude.value, hk]
      push_cast
      rw [add_sub_cancel_left, zpow_natCast, mul_one]
    · next hexp =>
      obtain ⟨places, hplaces⟩ := Nat.exists_eq_add_of_le (Nat.le_of_not_le hexp)
      have hunit : (m.exponent : ℤ) - w.unitExponent = -(places : ℤ) := by omega
      rw [hplaces, Nat.add_sub_cancel_left]
      generalize hd : (if m.significand < 2 ^ (w.precision - 1) then 0
        else twosUpTo places m.significand) = dropped
      obtain ⟨hle, hdvd⟩ : dropped ≤ places ∧ 2 ^ dropped ∣ m.significand := by
        rw [← hd]
        split
        · exact ⟨Nat.zero_le _, one_dvd _⟩
        · exact ⟨twosUpTo_le _ _, two_pow_twosUpTo_dvd _ _⟩
      exact hsigned (by rw [drop_twos hle hdvd, Magnitude.value, hunit])

/-- A finite floating-point number becomes the decimal that is the same number. -/
theorem exists_ofFloat? {x : BinaryFloat w} {p : ℚ} (h : x.rational? = some p) :
    ∃ d, ofFloat? x = some d ∧ d.value = p := by
  cases x with
  | nan => cases h
  | infinite s => cases h
  | finite s m =>
    cases h
    exact ⟨ofMagnitude s m, rfl, value_ofMagnitude s m⟩

end Decimal

end ConstraintSearch

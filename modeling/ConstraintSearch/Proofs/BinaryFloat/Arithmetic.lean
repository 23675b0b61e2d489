import ConstraintSearch.BinaryFloat.Arithmetic
import ConstraintSearch.Proofs.BinaryFloat.Rounding

/-!
# Laws of floating-point arithmetic

The laws on which the translation to engine terms rests: the product with minus one is the number
with its sign changed, the sum with a zero is the other number, and a number is unordered with
itself exactly if it is a NaN. They hold for every number, the zeros and the infinities included,
with the one exception of the sum of the two zeros, which is positive.
-/

namespace ConstraintSearch

variable {w : Width}

/-! ### The magnitude one -/

/-- The magnitude one. -/
def Magnitude.one (w : Width) : Magnitude w where
  significand := 2 ^ (w.precision - 1)
  exponent := w.unitExponent - (w.precision - 1)
  significand_lt := Nat.pow_lt_pow_right one_lt_two (Nat.sub_lt w.precision_pos one_pos)
  normal := .inr le_rfl
  exponent_le := by cases w <;> decide

namespace Magnitude

theorem one_isZero : (one w).isZero = false :=
  beq_eq_false_iff_ne.2 (Nat.two_pow_pos _).ne'

theorem one_exponent : ((one w).exponent : ℤ) = w.unitExponent - (w.precision - 1 : ℕ) := by
  cases w <;> rfl

theorem value_one : (one w).value = 1 := by
  rw [value, one_exponent, show (one w).significand = 2 ^ (w.precision - 1) from rfl,
    sub_sub_cancel_left, zpow_neg, zpow_natCast, Nat.cast_pow, Nat.cast_two]
  exact mul_inv_cancel₀ (by positivity)

theorem order_self (m : Magnitude w) : m.order m = .eq := by
  simp [order]

end Magnitude

namespace BinaryFloat

/-! ### Minus one -/

theorem ofInt_neg_one : ofInt w (-1) = .finite true (Magnitude.one w) := by
  have h : Magnitude.round? w 1 1 0 = some (Magnitude.one w) :=
    Magnitude.round?_of_value_eq one_pos (by simp [Magnitude.value_one])
  show ofRatio w true 1 1 0 = _
  rw [ofRatio, h]

/-- A magnitude times one is rounded to itself. -/
theorem round?_mul_one (m : Magnitude w) :
    Magnitude.round? w (m.significand * (Magnitude.one w).significand) 1
      (m.exponent + (Magnitude.one w).exponent - 2 * w.unitExponent) = some m := by
  refine Magnitude.round?_of_value_eq one_pos ?_
  have hone := Magnitude.value_one (w := w)
  rw [Magnitude.value] at hone ⊢
  calc ((m.significand * (Magnitude.one w).significand : ℕ) : ℚ) / (1 : ℕ) *
        2 ^ ((m.exponent : ℤ) + (Magnitude.one w).exponent - 2 * w.unitExponent)
      = m.significand * 2 ^ ((m.exponent : ℤ) - w.unitExponent) *
        ((Magnitude.one w).significand *
          2 ^ (((Magnitude.one w).exponent : ℤ) - w.unitExponent)) := by
        rw [show (m.exponent : ℤ) + (Magnitude.one w).exponent - 2 * w.unitExponent =
          (m.exponent - w.unitExponent) + ((Magnitude.one w).exponent - w.unitExponent) by ring,
          zpow_add₀ (by norm_num)]
        push_cast
        ring
    _ = m.significand * 2 ^ ((m.exponent : ℤ) - w.unitExponent) := by rw [hone, mul_one]

/-- The product with minus one is the number with its sign changed. -/
theorem mul_neg_one (x : BinaryFloat w) : x.mul (ofInt w (-1)) = x.neg := by
  rw [ofInt_neg_one]
  cases x with
  | nan => rfl
  | infinite s => simp [mul, neg, Magnitude.one_isZero]
  | finite s m => simp [mul, neg, ofRatio, round?_mul_one]

/-! ### Zeros -/

/-- The two zeros. -/
def signedZero (w : Width) (negative : Bool) : BinaryFloat w :=
  .finite negative (Magnitude.zero w)

theorem finite_eq_signedZero_iff {s t : Bool} {m : Magnitude w} :
    finite t m = signedZero w s ↔ t = s ∧ m.significand = 0 := by
  rw [signedZero, finite.injEq]
  exact and_congr_right fun _ ↦ ⟨fun h ↦ h ▸ rfl, Magnitude.eq_zero_of_significand⟩

/-- A magnitude in units is rounded to itself. -/
theorem round?_units (m : Magnitude w) :
    Magnitude.round? w (m.significand <<< m.exponent) 1 (-w.unitExponent) = some m := by
  refine Magnitude.round?_of_value_eq one_pos ?_
  rw [Magnitude.value, Nat.shiftLeft_eq, sub_eq_add_neg, zpow_add₀ (by norm_num), zpow_natCast]
  push_cast
  ring

/-- A number of units is the magnitude with the sign. -/
theorem ofScaledInt_units {m : Magnitude w} (hm : m.significand ≠ 0) (s t : Bool) :
    ofScaledInt w s (if t then -((m.significand <<< m.exponent : Nat) : Int)
      else (m.significand <<< m.exponent : Nat)) (-w.unitExponent) = .finite t m := by
  have hround := round?_units m
  have hpos : 0 < m.significand <<< m.exponent := by
    rw [Nat.shiftLeft_eq]
    positivity
  generalize m.significand <<< m.exponent = i at hround hpos
  cases t with
  | true => simp [ofScaledInt, ofRatio, hround, hpos.ne', hpos]
  | false => simp [ofScaledInt, ofRatio, hround, hpos.ne']

/-- The sum of two finite numbers is computed at the smaller exponent. -/
theorem add_finite (s t : Bool) (m n : Magnitude w) :
    add (.finite s m) (.finite t n) =
      let e := min m.exponent n.exponent
      let i : Int := (m.significand <<< (m.exponent - e) : Nat)
      let j : Int := (n.significand <<< (n.exponent - e) : Nat)
      ofScaledInt w (s && t) ((if s then -i else i) + if t then -j else j) (e - w.unitExponent) :=
  rfl

protected theorem add_comm (x y : BinaryFloat w) : x.add y = y.add x := by
  rcases x with - | s | ⟨s, m⟩ <;> rcases y with - | t | ⟨t, n⟩
  case finite.finite =>
    dsimp only [add_finite]
    rw [Bool.and_comm, Int.add_comm, Nat.min_comm]
  case infinite.infinite => cases s <;> cases t <;> rfl
  all_goals rfl

/-- The sum with a zero is the other number, unless negative zero and positive zero add up. -/
theorem add_signedZero (x : BinaryFloat w) (s : Bool) :
    x.add (signedZero w s) =
      if s = false ∧ x = signedZero w true then signedZero w false else x := by
  rcases x with - | t | ⟨t, m⟩
  · simp [add, signedZero]
  · simp [add, signedZero]
  · have hsum : add (.finite t m) (signedZero w s) =
        ofScaledInt w (t && s) (if t then -((m.significand <<< m.exponent : Nat) : Int)
          else (m.significand <<< m.exponent : Nat)) (-w.unitExponent) := by
      rw [signedZero, add_finite]
      simp [Magnitude.zero]
    rw [hsum]
    by_cases hm : m.significand = 0
    · obtain rfl := Magnitude.eq_zero_of_significand hm
      cases s <;> cases t <;> simp [ofScaledInt, signedZero, hm]
    · rw [ofScaledInt_units hm, if_neg fun h ↦ hm (finite_eq_signedZero_iff.1 h.2).2]

theorem sub_signedZero (x : BinaryFloat w) (s : Bool) :
    x.sub (signedZero w s) = x.add (signedZero w !s) :=
  rfl

/-! ### Order -/

/-- A number is equal to itself unless it is a NaN. -/
theorem order?_self (x : BinaryFloat w) : x.order? x = if x.isNaN then none else some .eq := by
  rcases x with - | s | ⟨- | -, m⟩ <;> simp [order?, isNaN, Magnitude.order_self]

/-- A number differs from itself exactly if it is a NaN. -/
theorem ne_self (x : BinaryFloat w) : Comparison.ne.holds (x.order? x) = x.isNaN := by
  rw [order?_self]
  cases x.isNaN <;> rfl

end BinaryFloat

end ConstraintSearch

import ConstraintSearch.Word
import Mathlib.Data.Int.ModEq

/-!
# Wrapping

The word congruent to an integer. Wrapping at a width commutes with all arithmetic that has no
division in it and with the operators on bits, and it does not matter whether a number is wrapped
at a wider word first. So what is computed in narrow words is the narrow part of what is computed
in wide ones, and it is exact where that fits. The mask that is put on the distance of a shift is a
residue too.
-/

namespace ConstraintSearch.Word

variable {v w : Width}

/-! ### Exact words -/

/-- The number is one that a word holds. -/
def Fits (w : Width) (i : Int) : Prop :=
  least w ≤ i ∧ i ≤ greatest w

instance (w : Width) (i : Int) : Decidable (Fits w i) :=
  inferInstanceAs (Decidable (_ ∧ _))

/-- A word is the one congruent to the number that it holds. -/
@[simp] theorem wrap_toInt (a : Word w) : wrap w a.toInt = a :=
  BitVec.ofInt_toInt

theorem toInt_wrap_of_fits {i : Int} (h : Fits w i) : (wrap w i).toInt = i :=
  BitVec.toInt_ofInt_eq_self w.bits_pos h.1 (by have := h.2; unfold greatest at this; omega)

theorem fits_toInt (a : Word w) : Fits w a.toInt :=
  ⟨a.le_toInt, a.toInt_le⟩

theorem natAbs_toInt_le (a : Word w) : a.toInt.natAbs ≤ 2 ^ (w.bits - 1) := by
  obtain ⟨hlow, hhigh⟩ := fits_toInt a
  have hpow : ((2 ^ (w.bits - 1) : Nat) : Int) = 2 ^ (w.bits - 1) := Int.natCast_pow 2 _
  rw [least, ← hpow] at hlow
  rw [greatest, ← hpow] at hhigh
  omega

theorem Fits.mono {i : Int} (hw : w.bits ≤ v.bits) (h : Fits w i) : Fits v i := by
  cases v <;> cases w <;> simp [Fits, least, greatest, Width.bits] at h hw ⊢ <;> omega

/-- A word holds a number that is congruent to the one that was wrapped. -/
theorem toInt_wrap_modEq (i : Int) : (wrap w i).toInt ≡ i [ZMOD 2 ^ w.bits] := by
  rw [wrap, BitVec.toInt_ofInt, Int.ModEq]
  exact_mod_cast Int.bmod_emod

/-! ### Narrow parts -/

/-- The narrow part of a word consists of its low bits. -/
theorem wrap_eq_setWidth (hw : w.bits ≤ v.bits) (a : Word v) :
    wrap w a.toInt = a.setWidth w.bits :=
  BitVec.signExtend_eq_setWidth_of_le a hw

/-- A number that is wrapped at a wider word first comes to the same word. -/
theorem wrap_wrap (hw : w.bits ≤ v.bits) (i : Int) : wrap w (wrap v i).toInt = wrap w i := by
  refine BitVec.eq_of_toInt_eq ?_
  simp only [wrap, BitVec.toInt_ofInt]
  exact Int.bmod_bmod_of_dvd (Nat.pow_dvd_pow 2 hw)

theorem wrap_neg (hw : w.bits ≤ v.bits) (a : Word v) :
    wrap w (-a).toInt = -wrap w a.toInt := by
  rw [wrap_eq_setWidth hw, wrap_eq_setWidth hw, BitVec.setWidth_neg_of_le hw]

/-- Without division, arithmetic on narrow parts gives the narrow part of the result. -/
theorem wrap_arithmetic? {op : ArithmeticOp} (hdiv : op ≠ .div) (hrem : op ≠ .rem)
    (hw : w.bits ≤ v.bits) (a b : Word v) :
    ∃ c, arithmetic? op a b = some c ∧
      arithmetic? op (wrap w a.toInt) (wrap w b.toInt) = some (wrap w c.toInt) := by
  cases op with
  | add =>
    refine ⟨a + b, rfl, congrArg some ?_⟩
    simp only [wrap_eq_setWidth hw, BitVec.setWidth_add _ _ hw]
  | sub =>
    refine ⟨a - b, rfl, congrArg some ?_⟩
    simp only [wrap_eq_setWidth hw, BitVec.sub_eq_add_neg, BitVec.setWidth_add _ _ hw,
      BitVec.setWidth_neg_of_le hw]
  | mul =>
    refine ⟨a * b, rfl, congrArg some ?_⟩
    simp only [wrap_eq_setWidth hw, BitVec.setWidth_mul _ _ hw]
  | div => exact absurd rfl hdiv
  | rem => exact absurd rfl hrem

theorem wrap_onBits (op : BooleanOp) (hw : w.bits ≤ v.bits) (a b : Word v) :
    wrap w (op.onBits a b).toInt = op.onBits (wrap w a.toInt) (wrap w b.toInt) := by
  simp only [wrap_eq_setWidth hw]
  cases op <;> simp [BooleanOp.onBits]

/-! ### Distances of shifts -/

/-- The unsigned reading of a word is congruent to the signed one. -/
theorem toInt_modEq_toNat (a : Word w) : a.toInt ≡ a.toNat [ZMOD 2 ^ w.bits] := by
  rw [BitVec.toInt_eq_toNat_bmod, Int.ModEq]
  exact_mod_cast Int.bmod_emod

/-- The masked distance is the residue of the distance, also of one that is negative or too
large. -/
theorem places_eq (w : Width) (d : Word v) : (places w d : Int) = d.toInt % w.bits := by
  have hmask : places w d = d.toNat % w.bits := by
    have hlt : w.bits - 1 < 2 ^ v.bits := by cases w <;> cases v <;> decide
    rw [places, BitVec.toNat_and, BitVec.toNat_ofNat, Nat.mod_eq_of_lt hlt]
    cases w
    · exact Nat.and_two_pow_sub_one_eq_mod _ 5
    · exact Nat.and_two_pow_sub_one_eq_mod _ 6
  have hdvd : (w.bits : Int) ∣ 2 ^ v.bits := by cases w <;> cases v <;> decide
  rw [hmask, Int.natCast_emod]
  exact ((toInt_modEq_toNat d).of_dvd hdvd).symm

/-- No bit of a distance that is cut off would have been kept by the mask. -/
theorem places_wrap (w : Width) (d : Word v) : places w (wrap .w32 d.toInt) = places w d := by
  have hdvd : (w.bits : Int) ∣ 2 ^ Width.w32.bits := by cases w <;> decide
  refine Int.ofNat.inj ?_
  calc (places w (wrap .w32 d.toInt) : Int)
      = (wrap .w32 d.toInt).toInt % w.bits := places_eq w _
    _ = d.toInt % w.bits := (toInt_wrap_modEq d.toInt).of_dvd hdvd
    _ = places w d := (places_eq w d).symm

/-! ### Minus one -/

/-- The product with minus one is the number with its sign changed. -/
theorem mul_neg_one (a : Word w) : a * wrap w (-1) = -a := by
  have hone : wrap w (-1) = -1#w.bits := by
    rw [wrap, BitVec.ofInt_neg]
    rfl
  rw [hone, BitVec.mul_neg, BitVec.mul_one]

end ConstraintSearch.Word

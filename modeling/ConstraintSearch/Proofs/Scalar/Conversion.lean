import ConstraintSearch.Formula.Value
import ConstraintSearch.Proofs.BinaryFloat.Arithmetic
import ConstraintSearch.Proofs.Word

/-!
# Conversions between kinds

The conversions of the engine and the casts of source expressions are two functions on the same
numbers. They differ only in how a 32-bit float is reached from another kind, and no number is
changed by a conversion to its own kind.
-/

namespace ConstraintSearch

/-! ### Kinds -/

namespace NumKind

@[simp] theorem convert_self (k : NumKind) (x : k.Carrier) : k.convert k x = x := by
  cases k with
  | integral w => exact Word.wrap_toInt x
  | real w => exact BinaryFloat.toWidth_self x

/-- A cast is a conversion, unless it leads to a 32-bit float from another kind. -/
theorem cast_eq_convert {k v : NumKind} (h : v = .float → k = .float) (x : k.Carrier) :
    k.cast v x = k.convert v x := by
  match k, v with
  | .float, .float => exact (convert_self .float x).symm
  | .float, .double => rfl
  | .double, .double => rfl
  | .integral _, .double => rfl
  | .float, .integral _ => rfl
  | .double, .integral _ => rfl
  | .integral _, .integral _ => rfl
  | .double, .float => cases h rfl
  | .integral _, .float => cases h rfl

@[simp] theorem cast_self (k : NumKind) (x : k.Carrier) : k.cast k x = x := by
  rw [cast_eq_convert id, convert_self]

/-- The product with minus one is the number with its sign changed, at every kind. -/
theorem mul_neg_one (k : NumKind) (x : k.Carrier) :
    k.arithmetic? .mul x (k.ofInt (-1)) = some (NumTy.neg (.machine k) x) := by
  cases k with
  | integral w => exact congrArg some (Word.mul_neg_one x)
  | real w => exact congrArg some (BinaryFloat.mul_neg_one x)

end NumKind

/-! ### Scalars and values -/

namespace Scalar

@[simp] theorem convert?_self (v : Scalar) : v.convert? v.kind = some v.value := by
  obtain ⟨- | k, x⟩ := v
  · rfl
  · exact congrArg some (NumKind.convert_self k x)

end Scalar

namespace Value

@[simp] theorem ty_ofScalar (v : Scalar) : (ofScalar v).ty = Ty.ofKind v.kind := by
  obtain ⟨- | k, x⟩ := v <;> rfl

theorem ofScalar_injective {v u : Scalar} (h : ofScalar v = ofScalar u) : v = u := by
  have hs := congrArg toScalar? h
  simpa using hs

end Value

end ConstraintSearch

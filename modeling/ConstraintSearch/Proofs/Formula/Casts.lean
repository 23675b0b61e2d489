import ConstraintSearch.Proofs.BinaryFloat.DoubleRounding
import ConstraintSearch.Proofs.Scalar.Conversion

/-!
# Casts and conversions

Source expressions cast numbers, and the engine converts them. Between the machine kinds both
always have a result, and it is the same one with one exception: a cast reaches a narrow float by
way of a wide one, and a long integer may be rounded twice on this way. That shows for those long
integers only whose nearest wide float lies halfway between two narrow ones.
-/

namespace ConstraintSearch

namespace NumKind

/-- The cast loses a tie between two narrow floats that the conversion does not meet. -/
def CastAstray : (k v : NumKind) → k.Carrier → Prop
  | .long, .float, x => DoublyRounded x.toInt.natAbs
  | _, _, _ => False

/-- An integer is cast to a narrow float by way of a wide one. -/
theorem cast_integral_float_iff {w : Width} (x : Word w) :
    cast (.integral w) .float x = convert (.integral w) .float x ↔
      ¬ DoublyRounded x.toInt.natAbs := by
  refine BinaryFloat.toWidth_ofInt_eq_iff ((Word.natAbs_toInt_le x).trans_lt ?_)
  cases w <;> decide

theorem not_castAstray {k v : NumKind} (h : v = .float → k = .float) (x : k.Carrier) :
    ¬ k.CastAstray v x := by
  unfold CastAstray
  split
  · cases h rfl
  · exact id

/-- A cast makes of a number what a conversion makes of it, unless it goes astray. -/
theorem cast_eq_convert_iff (k v : NumKind) (x : k.Carrier) :
    k.cast v x = k.convert v x ↔ ¬ k.CastAstray v x := by
  by_cases h : v = .float → k = .float
  · exact iff_of_true (cast_eq_convert h x) (not_castAstray h x)
  · obtain ⟨rfl, hk⟩ := Classical.not_imp.1 h
    match k, hk with
    | .long, _ => exact cast_integral_float_iff x
    | .int, _ =>
      -- Every narrow integer is a wide float.
      have hsmall : x.toInt.natAbs.log2 ≤ 52 := by
        rw [Nat.log2_eq_log_two]
        exact (Nat.log_mono_right (Word.natAbs_toInt_le x)).trans (by
          rw [Nat.log_pow one_lt_two]
          decide)
      exact iff_of_true ((cast_integral_float_iff x).2 (not_doublyRounded_of_log2_le hsmall)) id
    | .double, _ => exact iff_of_true rfl id
    | .float, hk => exact absurd rfl hk

end NumKind

/-- A number of a machine kind is cast to every machine kind, and it is converted to every one. The
two results are the same unless the cast goes astray. -/
theorem Value.cast_agrees_with_convert_iff (k v : NumKind) (x : k.Carrier) :
    ∃ y z : v.Carrier,
      (ofScalar ⟨.num k, x⟩).cast? (Ty.ofKind (.num v)) = some (ofScalar ⟨.num v, y⟩) ∧
      (⟨.num k, x⟩ : Scalar).convert? (.num v) = some z ∧
      (y = z ↔ ¬ k.CastAstray v x) :=
  ⟨k.cast v x, k.convert v x, rfl, rfl, k.cast_eq_convert_iff v x⟩

/-- A long integer next to a halfway point is cast to the narrow float below that point, and it is
converted to the one above. -/
theorem Value.cast_differs_from_convert :
    let x : Word .w64 := 2305843146652647425#64
    let below := BinaryFloat.ofInt .w32 (2 ^ 61)
    let above := BinaryFloat.ofInt .w32 (2 ^ 61 + 2 ^ 38)
    (ofScalar ⟨.long, x⟩).cast? .float = some (ofScalar ⟨.float, below⟩) ∧
      (⟨.long, x⟩ : Scalar).convert? .float = some above ∧ below ≠ above := by
  decide +kernel

end ConstraintSearch

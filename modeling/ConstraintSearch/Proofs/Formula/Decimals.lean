import ConstraintSearch.Formula.Evaluation
import ConstraintSearch.Proofs.Decimal.Conversion

/-!
# Operators on decimals

A decimal is the greatest of the numeric types, so an operator on a decimal and another number casts
the other number to a decimal. Every number that is rational is cast to the decimal that is the same
rational number; the operators on values are then those of the rational numbers, whatever the scales
of the operands are and whichever shortcut is taken. Scales are not bounded here: where they are kept
in 64 bits, this is the result as long as its scale fits.
-/

namespace ConstraintSearch

/-! ### Rational numbers -/

/-- The rational number that a number of a kind is, if it is finite. -/
def NumKind.rational? : (k : NumKind) → k.Carrier → Option ℚ
  | .integral _, x => some x.toInt
  | .real _, x => BinaryFloat.rational? x

/-- The rational number that a number of a type is, if it is finite. -/
def NumTy.rational? : (t : NumTy) → t.Carrier → Option ℚ
  | .machine k, x => k.rational? x
  | .decimal, d => some (Decimal.value d)

/-- The rational number that a value is; booleans, NaNs and infinities are none. -/
def Value.rational? : Value → Option ℚ
  | ⟨.bool, _⟩ => none
  | ⟨.num t, x⟩ => t.rational? x

namespace Comparison

/-- Whether the comparison holds of two rational numbers. -/
def Relates : Comparison → ℚ → ℚ → Prop
  | .eq, p, q => p = q
  | .ne, p, q => p ≠ q
  | .ge, p, q => q ≤ p
  | .gt, p, q => q < p
  | .le, p, q => p ≤ q
  | .lt, p, q => p < q

instance : (op : Comparison) → (p q : ℚ) → Decidable (op.Relates p q)
  | .eq, p, q => inferInstanceAs (Decidable (p = q))
  | .ne, p, q => inferInstanceAs (Decidable (p ≠ q))
  | .ge, p, q => inferInstanceAs (Decidable (q ≤ p))
  | .gt, p, q => inferInstanceAs (Decidable (q < p))
  | .le, p, q => inferInstanceAs (Decidable (p ≤ q))
  | .lt, p, q => inferInstanceAs (Decidable (p < q))

/-- A comparison is decided by the order of the numbers. -/
theorem holds_compare (op : Comparison) (p q : ℚ) :
    op.holds (some (compare p q)) = decide (op.Relates p q) := by
  rcases lt_trichotomy p q with h | rfl | h
  · cases op <;> simp [holds, Relates, compare_lt_iff_lt.2 h, h, h.le, h.ne, h.not_gt, h.not_ge]
  · cases op <;> simp [holds, Relates]
  · cases op <;>
      simp [holds, Relates, compare_gt_iff_gt.2 h, h, h.le, h.ne', h.not_gt, h.not_ge]

end Comparison

/-! ### Operands -/

namespace NumTy

theorem rank_le_decimal (t : NumTy) : t.rank ≤ rank .decimal := by
  rcases t with ((- | -) | (- | -)) | - <;> decide

/-- Every number meets a decimal at the decimals. -/
theorem join_eq_decimal {s t : NumTy} (h : s = .decimal ∨ t = .decimal) : s.join t = .decimal := by
  rcases h with rfl | rfl
  · exact if_pos t.rank_le_decimal
  · rcases s with ((- | -) | (- | -)) | - <;> rfl

/-- A rational number is cast to the decimal that is the same number. -/
theorem exists_cast?_decimal {t : NumTy} {x : t.Carrier} {p : ℚ} (h : t.rational? x = some p) :
    ∃ d, t.cast? .decimal x = some d ∧ d.value = p := by
  match t, x with
  | .machine (.integral w), x =>
    cases h
    exact ⟨Decimal.ofInt x.toInt, rfl, Decimal.value_ofInt _⟩
  | .machine (.real w), x =>
    exact Decimal.exists_ofFloat? ((BinaryFloat.rational?_toWidth x).trans h)
  | .decimal, d =>
    cases h
    exact ⟨d, rfl, rfl⟩

end NumTy

namespace Value

variable {l r : Value} {p q : ℚ}

/-- Two rational numbers one of which is a decimal meet as decimals that are the same numbers. -/
theorem exists_operands_decimal (h : l.ty = .decimal ∨ r.ty = .decimal) (hl : l.rational? = some p)
    (hr : r.rational? = some q) :
    ∃ a b : Decimal, operands l r = .ok ⟨.decimal, a, b⟩ ∧ a.value = p ∧ b.value = q := by
  obtain ⟨- | s, x⟩ := l
  · cases hl
  obtain ⟨- | t, y⟩ := r
  · cases hr
  have hjoin : s.join t = .decimal := NumTy.join_eq_decimal (by simpa using h)
  obtain ⟨a, ha, hav⟩ := NumTy.exists_cast?_decimal hl
  obtain ⟨b, hb, hbv⟩ := NumTy.exists_cast?_decimal hr
  have hx : expectCast ⟨.num s, x⟩ .decimal = .ok a := by
    have hcast : castTo? ⟨.num s, x⟩ .decimal = some a := ha
    rw [expectCast, hcast]
  have hy : expectCast ⟨.num t, y⟩ .decimal = .ok b := by
    have hcast : castTo? ⟨.num t, y⟩ .decimal = some b := hb
    rw [expectCast, hcast]
  refine ⟨a, b, ?_, hav, hbv⟩
  unfold operands
  dsimp only
  rw [hjoin, hx, hy]
  rfl

/-- A comparison with a decimal is that of the rational numbers. -/
theorem compare_decimal (op : Comparison) (h : l.ty = .decimal ∨ r.ty = .decimal)
    (hl : l.rational? = some p) (hr : r.rational? = some q) :
    compare op l r = .ok (decide (op.Relates p q)) := by
  obtain ⟨a, b, hab, rfl, rfl⟩ := exists_operands_decimal h hl hr
  rw [← op.holds_compare, ← a.order_eq_compare b, compare, hab]
  rfl

/-- An operator on a decimal is the operator on decimals. -/
theorem arithmetic_decimal (op : ArithmeticOp) (h : l.ty = .decimal ∨ r.ty = .decimal)
    (hl : l.rational? = some p) (hr : r.rational? = some q) :
    ∃ a b : Decimal, a.value = p ∧ b.value = q ∧
      arithmetic op l r = (Decimal.arithmetic? op a b).elim (.error .divisionByZero)
        fun d ↦ .ok ⟨.decimal, d⟩ := by
  obtain ⟨a, b, hab, ha, hb⟩ := exists_operands_decimal h hl hr
  refine ⟨a, b, ha, hb, ?_⟩
  rw [arithmetic, hab]
  dsimp only [bind, Except.bind, NumTy.arithmetic?]
  cases Decimal.arithmetic? op a b <;> rfl

end Value

namespace Expr

/-- Where one of two operands is a decimal and both are rational numbers, the comparisons are those
of the rational numbers, and sum, difference and product are decimals that are the sum, difference
and product of the rational numbers. -/
theorem evaluate_decimal_exact {ν : Valuation} {l r : Expr} {x y : Value} {p q : ℚ}
    (hl : l.evaluate ν = .ok x) (hr : r.evaluate ν = .ok y)
    (hdecimal : x.ty = .decimal ∨ y.ty = .decimal)
    (hx : x.rational? = some p) (hy : y.rational? = some q) :
    (∀ op : Comparison,
        (compare op l r).evaluate ν = .ok (.ofBool (decide (op.Relates p q)))) ∧
      (∃ d : Decimal, (arith .add l r).evaluate ν = .ok ⟨.decimal, d⟩ ∧ d.value = p + q) ∧
      (∃ d : Decimal, (arith .sub l r).evaluate ν = .ok ⟨.decimal, d⟩ ∧ d.value = p - q) ∧
      ∃ d : Decimal, (arith .mul l r).evaluate ν = .ok ⟨.decimal, d⟩ ∧ d.value = p * q := by
  have harith (op : ArithmeticOp) : ∃ a b : Decimal, a.value = p ∧ b.value = q ∧
      (arith op l r).evaluate ν = (Decimal.arithmetic? op a b).elim (.error .divisionByZero)
        fun d ↦ .ok ⟨.decimal, d⟩ := by
    obtain ⟨a, b, ha, hb, hab⟩ := Value.arithmetic_decimal op hdecimal hx hy
    refine ⟨a, b, ha, hb, ?_⟩
    rw [← hab, evaluate, hl, hr]
    rfl
  refine ⟨fun op ↦ ?_, ?_, ?_, ?_⟩
  · rw [evaluate, hl, hr]
    show (Value.compare op x y >>= fun b ↦ pure (.ofBool b) : Except EvaluationError Value) = _
    rw [Value.compare_decimal op hdecimal hx hy]
    rfl
  · obtain ⟨a, b, rfl, rfl, hsum⟩ := harith .add
    exact ⟨_, hsum, a.value_add b⟩
  · obtain ⟨a, b, rfl, rfl, hdifference⟩ := harith .sub
    exact ⟨_, hdifference, a.value_sub b⟩
  · obtain ⟨a, b, rfl, rfl, hproduct⟩ := harith .mul
    exact ⟨_, hproduct, a.value_mul b⟩

example : (arith .add (.const ⟨.decimal, ⟨1, 1⟩⟩) (.const ⟨.int, 3#32⟩)).evaluate default =
    .ok ⟨.decimal, ⟨31, 1⟩⟩ := by
  rfl

end Expr

namespace TenthAndHalf

/-- One tenth. -/
def tenth : Value := ⟨.decimal, ⟨1, 1⟩⟩

/-- Minus one half, as a narrow float. -/
def minusHalf : Value :=
  ⟨.float, .finite true ⟨2 ^ 23, 125, by decide, by decide, by decide⟩⟩

theorem rational?_tenth : tenth.rational? = some (1 / 10) := by
  norm_num [tenth, Value.rational?, NumTy.rational?, Decimal.value]

theorem rational?_minusHalf : minusHalf.rational? = some (-1 / 2) := by
  norm_num [minusHalf, Value.rational?, NumTy.rational?, NumKind.rational?, BinaryFloat.rational?,
    Magnitude.value, Width.unitExponent]

/-- A decimal and a narrow float are compared, added, subtracted and multiplied exactly. -/
theorem evaluate_decimal_exact_tenth :
    tenth.rational? = some (1 / 10) ∧ minusHalf.rational? = some (-1 / 2) ∧
      (∀ op : Comparison, (Expr.compare op (.const tenth) (.const minusHalf)).evaluate default =
        .ok (.ofBool (decide (op.Relates (1 / 10) (-1 / 2))))) ∧
      (∃ d : Decimal, (Expr.arith .add (.const tenth) (.const minusHalf)).evaluate default =
        .ok ⟨.decimal, d⟩ ∧ d.value = 1 / 10 + -1 / 2) ∧
      (∃ d : Decimal, (Expr.arith .sub (.const tenth) (.const minusHalf)).evaluate default =
        .ok ⟨.decimal, d⟩ ∧ d.value = 1 / 10 - -1 / 2) ∧
      ∃ d : Decimal, (Expr.arith .mul (.const tenth) (.const minusHalf)).evaluate default =
        .ok ⟨.decimal, d⟩ ∧ d.value = 1 / 10 * (-1 / 2) :=
  ⟨rational?_tenth, rational?_minusHalf,
    Expr.evaluate_decimal_exact rfl rfl (.inl rfl) rational?_tenth rational?_minusHalf⟩

end TenthAndHalf

end ConstraintSearch

import ConstraintSearch.Proofs.Formula.Operators
import ConstraintSearch.Proofs.Term.Evaluation

/-!
# Two's complement

What the operators on words mean for the integers that the words stand for. A sum, a difference or
a product is the number of the width that is congruent to the exact result (`Word.IsResidue`),
division truncates (`Word.IsDivision`), and a shift by `m` places multiplies by `2 ^ m`, or divides
by it and rounds down (`ShiftOp.Shifts`). Division leaves the range in one place, where the least
number is divided by minus one.

Source expressions and engine terms have evaluators of their own. On words of one width both come
down to the operators on words, so that `twosComplement_of_bothGive` says of both at once what they
compute. They differ in how they mask the distance of a shift, and only the source shifts a word by
a word of the other width, and a long one to the right with zeros.
-/

namespace ConstraintSearch

/-! ### What the operators mean -/

/-- The exact result of an operator without division. -/
def ArithmeticOp.exact? : ArithmeticOp → Int → Int → Option Int
  | .add, i, j => some (i + j)
  | .sub, i, j => some (i - j)
  | .mul, i, j => some (i * j)
  | .div, _, _ => none
  | .rem, _, _ => none

namespace Word

/-- The integer `c` is the signed number of the width `w` that is congruent to `i`. -/
structure IsResidue (w : Width) (i c : Int) : Prop where
  fits : Fits w c
  modEq : c ≡ i [ZMOD 2 ^ w.bits]

/-- The integers `q` and `r` are the quotient and the remainder of `a` and `b` at the width `w`: the
exact quotient truncated toward zero, unless it is too large. -/
structure IsDivision (w : Width) (a b q r : Int) : Prop where
  modEq : a ≡ q * b + r [ZMOD 2 ^ w.bits]
  natAbs_lt : r.natAbs < b.natAbs
  sign : r = 0 ∨ r.sign = a.sign
  truncated : ¬ (a = least w ∧ b = -1) → q = a.tdiv b
  overflow : a = least w → b = -1 → q = least w ∧ r = 0

end Word

/-- The integer `c` is what a shift by `m` places makes of `a` at the width `w`. The quotients are
rounded down. -/
def ShiftOp.Shifts (op : ShiftOp) (w : Width) (a : Int) (m : Nat) (c : Int) : Prop :=
  match op with
  | .left => Word.IsResidue w (a * 2 ^ m) c
  | .right => c = a / 2 ^ m
  | .rightZero => Word.IsResidue w (a % 2 ^ w.bits / 2 ^ m) c

/-! ### Words -/

namespace Word

variable {v w : Width} {a b : Word w} {i : Int}

theorem isResidue_wrap (w : Width) (i : Int) : IsResidue w i (wrap w i).toInt :=
  ⟨fits_toInt _, toInt_wrap_modEq i⟩

/-- Without division, the result is congruent to the exact one. -/
theorem exists_isResidue {op : ArithmeticOp} (h : op.exact? a.toInt b.toInt = some i) :
    ∃ c, arithmetic? op a b = some c ∧ IsResidue w i c.toInt := by
  suffices harith : arithmetic? op a b = some (wrap w i) from ⟨_, harith, isResidue_wrap w i⟩
  cases op with
  | add =>
    cases h
    rw [wrap, BitVec.ofInt_add, BitVec.ofInt_toInt, BitVec.ofInt_toInt, arithmetic?]
  | sub =>
    cases h
    rw [wrap, Int.sub_eq_add_neg, BitVec.ofInt_add, BitVec.ofInt_neg, BitVec.ofInt_toInt,
      BitVec.ofInt_toInt, ← BitVec.sub_eq_add_neg, arithmetic?]
  | mul =>
    cases h
    rw [wrap, BitVec.ofInt_mul, BitVec.ofInt_toInt, BitVec.ofInt_toInt, arithmetic?]
  | div => cases h
  | rem => cases h

theorem isResidue_neg (a : Word w) : IsResidue w (-a.toInt) (-a).toInt := by
  have hneg : wrap w (-a.toInt) = -a := by
    rw [wrap, BitVec.ofInt_neg, BitVec.ofInt_toInt]
  exact hneg ▸ isResidue_wrap w _

theorem eq_intMin_iff (a : Word w) : a = BitVec.intMin w.bits ↔ a.toInt = least w := by
  have hmin : (BitVec.intMin w.bits).toInt = least w := by cases w <;> decide
  rw [← hmin, BitVec.toInt_inj]

theorem eq_neg_one_iff (b : Word w) : b = -1#w.bits ↔ b.toInt = -1 := by
  have hone : (-1#w.bits : Word w).toInt = -1 := by cases w <;> decide
  rw [← hone, BitVec.toInt_inj]

/-- The remainder is always the exact one. The quotient is, unless it overflows. -/
theorem isDivision_sdiv_srem (hb : b ≠ 0) :
    IsDivision w a.toInt b.toInt (a.sdiv b).toInt (a.srem b).toInt := by
  have hb' : b.toInt ≠ 0 := fun h ↦ hb (BitVec.toInt_inj.1 (h.trans BitVec.toInt_zero.symm))
  have hrem : (a.srem b).toInt = a.toInt.tmod b.toInt := BitVec.toInt_srem a b
  have hquot : (a.sdiv b).toInt ≡ a.toInt.tdiv b.toInt [ZMOD 2 ^ w.bits] := by
    rw [BitVec.toInt_sdiv, Int.ModEq]
    exact_mod_cast Int.bmod_emod
  refine ⟨?_, ?_, ?_, fun hne ↦ ?_, fun ha hone ↦ ⟨?_, ?_⟩⟩
  · have hexact := (hquot.mul_right b.toInt).add_right (a.toInt.tmod b.toInt)
    rw [Int.tdiv_mul_add_tmod] at hexact
    rw [hrem]
    exact hexact.symm
  · rw [hrem, Int.natAbs_tmod]
    exact Nat.mod_lt _ (Int.natAbs_pos.2 hb')
  · rw [hrem, ← Int.sign_eq_zero_iff_zero, Int.sign_tmod]
    split
    · exact .inl rfl
    · exact .inr rfl
  · refine BitVec.toInt_sdiv_of_ne_or_ne a b ?_
    rwa [Ne, Ne, eq_intMin_iff, eq_neg_one_iff, ← not_and_or]
  · rw [(eq_neg_one_iff b).2 hone, (eq_intMin_iff a).2 ha, BitVec.intMin_sdiv_neg_one,
      ← eq_intMin_iff]
  · rw [hrem, hone, Int.tmod_neg, Int.tmod_one]

theorem shifts_shift (op : ShiftOp) (a : Word w) (m : Nat) :
    op.Shifts w a.toInt m (shift op a m).toInt := by
  cases op with
  | left =>
    have hshift : (a <<< m).toInt ≡ a.toNat * 2 ^ m [ZMOD 2 ^ w.bits] := by
      rw [BitVec.toInt_shiftLeft, Nat.shiftLeft_eq, Int.ModEq]
      exact_mod_cast Int.bmod_emod
    exact ⟨fits_toInt _, hshift.trans ((toInt_modEq_toNat a).symm.mul_right _)⟩
  | right =>
    show (a.sshiftRight m).toInt = _
    rw [BitVec.toInt_sshiftRight, Int.shiftRight_eq_div_pow, Int.natCast_pow]
    rfl
  | rightZero =>
    have hunsigned : a.toInt % 2 ^ w.bits = a.toNat := by
      rw [toInt_modEq_toNat a]
      exact Int.emod_eq_of_lt (Int.natCast_nonneg _) (by exact_mod_cast a.isLt)
    have hshift : ((a >>> m).toNat : Int) = a.toInt % 2 ^ w.bits / 2 ^ m := by
      rw [hunsigned, BitVec.toNat_ushiftRight, Nat.shiftRight_eq_div_pow]
      norm_cast
    exact ⟨fits_toInt _, hshift ▸ toInt_modEq_toNat (a >>> m)⟩

/-- A shift by a masked distance is one by the residue of the distance. -/
theorem shifts_places (op : ShiftOp) (a : Word w) (d : Word v) :
    op.Shifts w a.toInt (d.toInt % w.bits).toNat (shift op a (places w d)).toInt := by
  rw [← places_eq, Int.toNat_natCast]
  exact shifts_shift op a _

end Word

/-! ### The two evaluators -/

/-- A source expression and an engine term evaluate to the same word. -/
structure BothGive {w : Width} (ν : Valuation) (σ : Assignment) (e : Expr)
    (t : Term (.num (.integral w))) (c : Word w) : Prop where
  expr : e.evaluate ν = .ok (.ofScalar ⟨.num (.integral w), c⟩)
  term : t.evaluate σ = .ok c

/-- What the evaluators make of the operators on two operands with the values `a` and `b` is what
these mean in two's complement. -/
structure TwosComplement {w : Width} (ν : Valuation) (σ : Assignment) (l r : Expr)
    (t u : Term (.num (.integral w))) (a b : Word w) : Prop where
  /-- Sums, differences and products. -/
  arith : ∀ op i, op.exact? a.toInt b.toInt = some i →
    ∃ c, BothGive ν σ (.arith op l r) (.arith op t u) c ∧ Word.IsResidue w i c.toInt
  /-- Quotients and remainders by zero. -/
  divisionByZero : b.toInt = 0 → ∀ op, op = .div ∨ op = .rem →
    (Expr.arith op l r).evaluate ν = .error .divisionByZero ∧
      (Term.arith op t u).evaluate σ = .error .divisionByZero
  /-- All other quotients and remainders. -/
  division : b.toInt ≠ 0 → ∃ q s, BothGive ν σ (.arith .div l r) (.arith .div t u) q ∧
    BothGive ν σ (.arith .rem l r) (.arith .rem t u) s ∧
      Word.IsDivision w a.toInt b.toInt q.toInt s.toInt
  /-- Operators on bits. -/
  bitwise : ∀ op, ∃ c, BothGive ν σ (.bits (.bitwise op) l r) (.bitwise op t u) c ∧
    ∀ i, c.getLsbD i = op.onBool (a.getLsbD i) (b.getLsbD i)
  /-- Shifts, as far as the engine has them. -/
  shift : ∀ op, ∀ h : op.ExistsAt w, ∃ c, BothGive ν σ (.bits (.shift op) l r) (.shift op h t u) c ∧
    op.Shifts w a.toInt (b.toInt % w.bits).toNat c.toInt
  /-- All shifts of the source, by distances of both widths. -/
  shift_source : ∀ op, ∀ (v : Width) (e : Expr) (d : Word v),
    e.evaluate ν = .ok (.ofScalar ⟨.num (.integral v), d⟩) →
      ∃ c : Word w, (Expr.bits (.shift op) l e).evaluate ν =
        .ok (.ofScalar ⟨.num (.integral w), c⟩) ∧
          op.Shifts w a.toInt (d.toInt % w.bits).toNat c.toInt
  /-- The minus sign, for which the engine has the product with minus one. -/
  neg : ∃ c, BothGive ν σ (.neg l) (.arith .mul t (.const (Word.wrap w (-1)))) c ∧
    Word.IsResidue w (-a.toInt) c.toInt

namespace BothGive

variable {v w : Width} {ν : Valuation} {σ : Assignment} {l r e : Expr}
  {t u : Term (.num (.integral w))} {a b c : Word w}

theorem evaluate_arith (op : ArithmeticOp) (hl : BothGive ν σ l t a) (hr : BothGive ν σ r u b) :
    (Expr.arith op l r).evaluate ν =
      (Word.arithmetic? op a b).elim (.error .divisionByZero)
        fun c ↦ .ok (.ofScalar ⟨.num (.integral w), c⟩) := by
  rw [Expr.evaluate, hl.expr, hr.expr]
  show Value.arithmetic op _ _ = _
  rw [Value.arithmetic_ofScalar (NumKind.meetAt_self _), NumKind.convert_self, NumKind.convert_self]
  rfl

theorem arith {op : ArithmeticOp} (hl : BothGive ν σ l t a) (hr : BothGive ν σ r u b)
    (hc : Word.arithmetic? op a b = some c) : BothGive ν σ (.arith op l r) (.arith op t u) c where
  expr := by rw [hl.evaluate_arith op hr, hc]; rfl
  term := Term.evaluate_arith_of_ok hl.term hr.term hc

theorem arith_eq_error {op : ArithmeticOp} (hl : BothGive ν σ l t a) (hr : BothGive ν σ r u b)
    (hc : Word.arithmetic? op a b = none) :
    (Expr.arith op l r).evaluate ν = .error .divisionByZero ∧
      (Term.arith op t u).evaluate σ = .error .divisionByZero := by
  constructor
  · rw [hl.evaluate_arith op hr, hc]
    rfl
  · rw [Term.evaluate_arith, hl.term, hr.term]
    show (Word.arithmetic? op a b).elim (Except.error TermError.divisionByZero) Except.ok = _
    rw [hc]
    rfl

theorem bitwise (op : BooleanOp) (hl : BothGive ν σ l t a) (hr : BothGive ν σ r u b) :
    BothGive ν σ (.bits (.bitwise op) l r) (.bitwise op t u) (op.onBits a b) where
  expr := by
    rw [Expr.evaluate, hl.expr, hr.expr]
    show Value.bitwise op (.ofScalar ⟨.num (.integral w), a⟩)
      (.ofScalar ⟨.num (.integral w), b⟩) = _
    rw [Value.bitwise_ofScalar (NumKind.meetAt_self _), Word.wrap_toInt, Word.wrap_toInt]
  term := by
    rw [Term.evaluate, hl.term, hr.term]
    rfl

/-- The source cuts the distance of a shift to 32 bits before it masks it, which changes
nothing. -/
theorem evaluate_shift (op : ShiftOp) {d : Word v} (hl : BothGive ν σ l t a)
    (he : e.evaluate ν = .ok (.ofScalar ⟨.num (.integral v), d⟩)) :
    (Expr.bits (.shift op) l e).evaluate ν =
      .ok (.ofScalar ⟨.num (.integral w), Word.shift op a (Word.places w d)⟩) := by
  rw [← Word.places_wrap, Expr.evaluate, hl.expr, he]
  rfl

theorem shift {op : ShiftOp} (h : op.ExistsAt w) (hl : BothGive ν σ l t a)
    (hr : BothGive ν σ r u b) :
    BothGive ν σ (.bits (.shift op) l r) (.shift op h t u)
      (Word.shift op a (Word.places w b)) where
  expr := hl.evaluate_shift op hr.expr
  term := by
    rw [Term.evaluate, hl.term, hr.term]
    rfl

theorem neg (hl : BothGive ν σ l t a) :
    BothGive ν σ (.neg l) (.arith .mul t (.const (Word.wrap w (-1)))) (-a) where
  expr := by
    rw [Expr.evaluate, hl.expr]
    rfl
  term := Term.evaluate_arith_of_ok hl.term rfl (congrArg some (Word.mul_neg_one a))

end BothGive

/-- The operators on the bits of words act on each bit. -/
theorem BooleanOp.getLsbD_onBits (op : BooleanOp) {n : Nat} (a b : BitVec n) (i : Nat) :
    (op.onBits a b).getLsbD i = op.onBool (a.getLsbD i) (b.getLsbD i) := by
  cases op with
  | and => exact BitVec.getLsbD_and
  | or => exact BitVec.getLsbD_or
  | xor => exact BitVec.getLsbD_xor

/-- Both evaluators compute in two's complement. If the operands of an operator have words of one
width as their values, then the source expression and the engine term have the same result, and it
is the one that two's complement asks for. -/
theorem twosComplement_of_bothGive {w : Width} {ν : Valuation} {σ : Assignment} {l r : Expr}
    {t u : Term (.num (.integral w))} {a b : Word w} (hl : BothGive ν σ l t a)
    (hr : BothGive ν σ r u b) : TwosComplement ν σ l r t u a b where
  arith op i hop := by
    obtain ⟨c, hc, hres⟩ := Word.exists_isResidue hop
    exact ⟨c, hl.arith hr hc, hres⟩
  divisionByZero hb op hop := by
    have hzero : b = 0 := BitVec.toInt_inj.1 (hb.trans BitVec.toInt_zero.symm)
    refine hl.arith_eq_error hr ?_
    rcases hop with rfl | rfl <;> exact if_pos hzero
  division hb := by
    have hne : b ≠ 0 := fun h ↦ hb (h ▸ BitVec.toInt_zero)
    exact ⟨_, _, hl.arith hr (if_neg hne), hl.arith hr (if_neg hne),
      Word.isDivision_sdiv_srem hne⟩
  bitwise op := ⟨_, hl.bitwise op hr, op.getLsbD_onBits a b⟩
  shift op h := ⟨_, hl.shift h hr, Word.shifts_places op a b⟩
  shift_source op _ _ d he := ⟨_, hl.evaluate_shift op he, Word.shifts_places op a d⟩
  neg := ⟨_, hl.neg, Word.isResidue_neg a⟩

namespace LeastLong

/-! The least long integer and minus one, as a variable and its literal each. -/

def x : Variable := ⟨"x", .long⟩

def y : Variable := ⟨"y", .long⟩

def valuation : Valuation :=
  ⟨[(x, .ofScalar ⟨.long, BitVec.intMin 64⟩), (y, .ofScalar ⟨.long, -1#64⟩)]⟩

def assignment : Assignment :=
  ⟨[(0, ⟨.long, BitVec.intMin 64⟩), (1, ⟨.long, -1#64⟩)]⟩

/-- Their quotient overflows, and minus one is a distance of 63 places. -/
theorem twosComplement_of_bothGive_variables :
    BothGive (w := .w64) valuation assignment (.var x) (.lit 0) (BitVec.intMin 64) ∧
      BothGive (w := .w64) valuation assignment (.var y) (.lit 1) (-1#64) ∧
      TwosComplement (w := .w64) valuation assignment (.var x) (.var y) (.lit 0) (.lit 1)
        (BitVec.intMin 64) (-1#64) := by
  have hx : BothGive (w := .w64) valuation assignment (.var x) (.lit 0) (BitVec.intMin 64) :=
    ⟨rfl, rfl⟩
  have hy : BothGive (w := .w64) valuation assignment (.var y) (.lit 1) (-1#64) := ⟨rfl, rfl⟩
  exact ⟨hx, hy, twosComplement_of_bothGive hx hy⟩

end LeastLong

end ConstraintSearch

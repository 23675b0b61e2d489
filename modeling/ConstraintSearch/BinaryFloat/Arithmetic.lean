import ConstraintSearch.BinaryFloat.Basic
import ConstraintSearch.Operator

/-!
# Floating-point arithmetic

Each operation computes its exact result in integers and rounds it once. The remainder has
the sign of the dividend and is exact, because it is a multiple of the finer of the two
grids and smaller than the divisor.
-/

namespace ConstraintSearch.BinaryFloat

variable {w : Width}

/-- An integer with a sign given apart. -/
private def signed (negative : Bool) (n : Nat) : Int :=
  if negative then -n else n

/-- The exponent at which both magnitudes are whole. -/
private def commonExponent (m n : Magnitude w) : Nat :=
  min m.exponent n.exponent

/-- The significand at a smaller exponent. -/
private def significandAt (m : Magnitude w) (exponent : Nat) : Nat :=
  m.significand <<< (m.exponent - exponent)

/-- The sum. Opposite numbers, and zeros of different signs, add up to positive zero. -/
def add : BinaryFloat w → BinaryFloat w → BinaryFloat w
  | .nan, _ => .nan
  | _, .nan => .nan
  | .infinite s, .infinite t => if s = t then .infinite s else .nan
  | .infinite s, .finite _ _ => .infinite s
  | .finite _ _, .infinite t => .infinite t
  | .finite s m, .finite t n =>
    let e := commonExponent m n
    ofScaledInt w (s && t) (signed s (significandAt m e) + signed t (significandAt n e))
      (e - w.unitExponent)

/-- The difference. -/
def sub (x y : BinaryFloat w) : BinaryFloat w :=
  add x y.neg

/-- The product. A zero times an infinity is a NaN. -/
def mul : BinaryFloat w → BinaryFloat w → BinaryFloat w
  | .nan, _ => .nan
  | _, .nan => .nan
  | .infinite s, .infinite t => .infinite (s != t)
  | .infinite s, .finite t n => if n.isZero then .nan else .infinite (s != t)
  | .finite s m, .infinite t => if m.isZero then .nan else .infinite (s != t)
  | .finite s m, .finite t n =>
    ofRatio w (s != t) (m.significand * n.significand) 1
      (m.exponent + n.exponent - 2 * w.unitExponent)

/-- The quotient. A nonzero number divided by a zero is infinite, and a zero divided by a
zero is a NaN. -/
def div : BinaryFloat w → BinaryFloat w → BinaryFloat w
  | .nan, _ => .nan
  | _, .nan => .nan
  | .infinite _, .infinite _ => .nan
  | .infinite s, .finite t _ => .infinite (s != t)
  | .finite s _, .infinite t => .finite (s != t) (Magnitude.zero w)
  | .finite s m, .finite t n =>
    if n.isZero then if m.isZero then .nan else .infinite (s != t)
    else ofRatio w (s != t) m.significand n.significand ((m.exponent : Int) - n.exponent)

/-- The remainder of the division truncated toward zero, with the sign of the dividend. -/
def rem : BinaryFloat w → BinaryFloat w → BinaryFloat w
  | .nan, _ => .nan
  | _, .nan => .nan
  | .infinite _, _ => .nan
  | .finite s m, .infinite _ => .finite s m
  | .finite s m, .finite _ n =>
    if n.isZero then .nan
    else
      let e := commonExponent m n
      ofScaledInt w s (signed s (significandAt m e % significandAt n e)) (e - w.unitExponent)

/-- The value of an arithmetic operator. -/
def arithmetic : ArithmeticOp → BinaryFloat w → BinaryFloat w → BinaryFloat w
  | .add => add
  | .sub => sub
  | .mul => mul
  | .div => div
  | .rem => rem

end ConstraintSearch.BinaryFloat

import ConstraintSearch.Decimal.Basic
import ConstraintSearch.Operator

/-!
# Decimal arithmetic

Sums, differences, products and remainders are exact; what has to be chosen is the scale of
the result. Quotients are computed to a hundred digits.
-/

namespace ConstraintSearch.Decimal

-- Powers are those of the core library, also where other instances are in scope.
attribute [local instance (high)] instPowNat

/-- The number with its sign changed, at the same scale. -/
def neg (a : Decimal) : Decimal :=
  ⟨-a.units, a.scale⟩

/-- The sum, at the greater scale. -/
def add (a b : Decimal) : Decimal :=
  let scale := max a.scale b.scale
  ⟨a.unitsAt scale + b.unitsAt scale, scale⟩

/-- The difference, at the greater scale, unless one of the numbers is zero: then it is the
other number, or its negation, at that number's own scale. -/
def sub (a b : Decimal) : Decimal :=
  if b.isZero then a
  else if a.isZero then b.neg
  else a.add b.neg

/-- The greatest scale at which a one is recognised. -/
def greatestUnitScale : Int := 38

/-- Whether the number is a one that products and quotients recognise: its scale is not
negative and at most `greatestUnitScale`. -/
def isOne (a : Decimal) : Bool :=
  0 ≤ a.scale && a.scale ≤ greatestUnitScale && a.units == 10 ^ a.scale.toNat

/-- The product. A one leaves the other number as it is; otherwise scales add up. -/
def mul (a b : Decimal) : Decimal :=
  if a.isOne then b
  else if b.isOne then a
  else ⟨a.units * b.units, a.scale + b.scale⟩

/-- The greatest number of digits of a quotient that is not exact. -/
def quotientDigits : Nat := 100

/-- Multiplies the dividend by ten until it is not smaller than the divisor, counting the
steps; `fuel` bounds them. -/
def raise (divisor : Nat) : Nat → Nat → Int → Nat × Int
  | 0, dividend, scale => (dividend, scale)
  | fuel + 1, dividend, scale =>
    if dividend < divisor then raise divisor fuel (dividend * 10) (scale + 1)
    else (dividend, scale)

/-- Appends further digits to a quotient: `remainder` is what is left, times ten. After the
last digit that is allowed, what is left rounds the quotient up if it is a half or more. -/
def divideDigits (divisor : Nat) : Nat → Nat → Nat → Int → Nat × Int
  | 0, quotient, remainder, scale =>
    (if remainder ≠ 0 ∧ 5 ≤ remainder / divisor then quotient + 1 else quotient, scale)
  | left + 1, quotient, remainder, scale =>
    if remainder = 0 then (quotient, scale)
    else
      divideDigits divisor left (quotient * 10 + remainder / divisor) (remainder % divisor * 10)
        (scale + 1)

/-- The quotient of two positive numbers of units, from the given scale on. -/
def divideUnits (dividend divisor : Nat) (scale : Int) : Nat × Int :=
  let (dividend, scale) := raise divisor (Text.digitCount divisor) dividend scale
  let quotient := dividend / divisor
  divideDigits divisor (quotientDigits - Text.digitCount quotient) quotient
    (dividend % divisor * 10) scale

/-- The quotient by a nonzero number. A zero dividend and a dividend divided by a one stay as
they are, and equal units give a single unit; otherwise digits are computed until the quotient
is exact or has `quotientDigits` of them. -/
def div (a b : Decimal) : Decimal :=
  if a.isZero || b.isOne then a
  else if a.units = b.units then ⟨1, a.scale - b.scale⟩
  else
    let (quotient, scale) := divideUnits a.units.natAbs b.units.natAbs (a.scale - b.scale)
    ⟨a.units.sign * b.units.sign * quotient, scale⟩

/-- The remainder of the division truncated toward zero by a nonzero number, with the sign of
the dividend, at the greater scale. -/
def rem (a b : Decimal) : Decimal :=
  let scale := max a.scale b.scale
  ⟨(a.unitsAt scale).tmod (b.unitsAt scale), scale⟩

/-- The value of an arithmetic operator; a quotient or remainder by zero has none. -/
def arithmetic? (op : ArithmeticOp) (a b : Decimal) : Option Decimal :=
  match op with
  | .add => some (a.add b)
  | .sub => some (a.sub b)
  | .mul => some (a.mul b)
  | .div => if b.isZero then none else some (a.div b)
  | .rem => if b.isZero then none else some (a.rem b)

end ConstraintSearch.Decimal

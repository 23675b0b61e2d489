import ConstraintSearch.Text.Numeral

/-!
# Decimal numbers

Decimal numbers of any precision: a whole number of units, and a *scale* that says how many
decimal places a unit has. Operations keep and combine scales instead of reducing them, so
that `1.0` and `1.00` are different decimals; they are equal in value, and value is what the
order compares.
-/

namespace ConstraintSearch

-- Powers are those of the core library, also where other instances are in scope.
attribute [local instance (high)] instPowNat

/-- The decimal number `units * 10 ^ (-scale)`. -/
structure Decimal where
  units : Int
  scale : Int
  deriving DecidableEq

namespace Decimal

/-- The least scale that a decimal may have. -/
def leastScale : Int := -2 ^ (63 : Nat)

/-- The greatest scale that a decimal may have. -/
def greatestScale : Int := 2 ^ (63 : Nat) - 1

/-- The decimal of an integer. -/
def ofInt (i : Int) : Decimal := ⟨i, 0⟩

instance : Inhabited Decimal := ⟨ofInt 0⟩

/-- Whether the number is zero, at any scale. -/
def isZero (d : Decimal) : Bool :=
  d.units == 0

/-- The units of the number at a scale that is not smaller than its own. -/
def unitsAt (d : Decimal) (scale : Int) : Int :=
  d.units * 10 ^ (scale - d.scale).toNat

/-- The number of digits before the point, or, negated, of zeros behind it, of a nonzero
number. -/
def size (d : Decimal) : Int :=
  (Text.digitCount d.units.natAbs : Int) - d.scale

/-- The order of the absolute values of two nonzero numbers. Numbers of different size are
told apart by it, so that scales are only aligned for numbers of the same size. -/
def orderAbs (a b : Decimal) : Ordering :=
  (compare a.size b.size).then
    (let scale := max a.scale b.scale
     compare (a.unitsAt scale).natAbs (b.unitsAt scale).natAbs)

/-- The order of two numbers by their values. -/
def order (a b : Decimal) : Ordering :=
  (compare a.units.sign b.units.sign).then
    (if a.units = 0 then .eq
     else if 0 < a.units then a.orderAbs b
     else b.orderAbs a)

end Decimal

end ConstraintSearch

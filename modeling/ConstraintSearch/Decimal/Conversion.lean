import ConstraintSearch.BinaryFloat.Arithmetic
import ConstraintSearch.BinaryFloat.Text
import ConstraintSearch.Decimal.Basic

/-!
# Conversions of decimal numbers

A finite floating-point number is a decimal exactly. The way back rounds: numbers of more
digits than a float can tell apart are first cut short, whole numbers with zeros at the end
are multiplied up in floating point, and the others are rounded once.
-/

namespace ConstraintSearch.Decimal

-- Powers are those of the core library, also where other instances are in scope.
attribute [local instance (high)] instPowNat

/-- How often two divides a positive number, at most `limit` times. -/
def twosUpTo : Nat → Nat → Nat
  | 0, _ => 0
  | limit + 1, n => if n % 2 = 0 then twosUpTo limit (n / 2) + 1 else 0

/-- The exact decimal of a magnitude, with a sign. Binary places become decimal ones; those
that a power of two in the significand makes superfluous are dropped first, but not for a
significand that is shorter than the precision. -/
def ofMagnitude {w : Width} (negative : Bool) (m : Magnitude w) : Decimal :=
  let signed (n : Nat) : Int := if negative then -n else n
  if m.isZero then ofInt 0
  else if w.unitExponent ≤ m.exponent then
    ofInt (signed (m.significand <<< (m.exponent - w.unitExponent)))
  else
    let places := w.unitExponent - m.exponent
    let dropped :=
      if m.significand < 2 ^ (w.precision - 1) then 0 else twosUpTo places m.significand
    ⟨signed (m.significand / 2 ^ dropped * 5 ^ (places - dropped)), places - dropped⟩

/-- The exact decimal of a floating-point number, if it is finite. -/
def ofFloat? {w : Width} : BinaryFloat w → Option Decimal
  | .nan => none
  | .infinite _ => none
  | .finite s m => some (ofMagnitude s m)

/-- The number of bits of a positive number. -/
def bitCount (n : Nat) : Nat :=
  n.log2 + 1

/-- The groups of nineteen digits that are cut off the end of a number before it becomes a
floating-point number: so many that at least twenty-five digits stay, as far as the number of
bits tells. -/
def superfluousGroups (n : Nat) : Nat :=
  (Text.digitCount (2 ^ (bitCount n + 1)) - 1 - 25) / 19

/-- The power `base ^ n` by repeated squaring, every product rounded; `fuel` bounds the
number of bits of `n`. -/
def floatPower : Nat → Nat → BinaryFloat .w64 → BinaryFloat .w64 → BinaryFloat .w64
  | 0, _, _, power => power
  | fuel + 1, n, base, power =>
    let power := if n % 2 = 1 then power.mul base else power
    if n / 2 = 0 then power else floatPower fuel (n / 2) (base.mul base) power

/-- The greatest scale, in absolute value, at which a number is converted; beyond it the
conversion gives up and answers with an infinity. -/
def greatestFloatScale : Int := 2 ^ (31 : Nat) - 1

/-- The 64-bit number near a positive decimal. -/
def toFloatAbs (n : Nat) (scale : Int) : BinaryFloat .w64 :=
  if scale = 0 then BinaryFloat.ofInt .w64 n
  else
    let groups := superfluousGroups n
    let n := n / 10 ^ (19 * groups)
    let scale := scale - 19 * groups
    if greatestFloatScale < scale ∨ scale < -greatestFloatScale then .infinite false
    else if scale ≤ 0 then
      (BinaryFloat.ofInt .w64 n).mul
        (floatPower 31 (-scale).toNat (BinaryFloat.ofInt .w64 10) (BinaryFloat.ofInt .w64 1))
    else BinaryFloat.ofDecimal .w64 false n (-scale)

/-- The 64-bit number near a decimal. -/
def toFloat (d : Decimal) : BinaryFloat .w64 :=
  if d.units = 0 then BinaryFloat.zero .w64
  else
    let x := toFloatAbs d.units.natAbs d.scale
    if d.units < 0 then x.neg else x

/-- The number truncated toward zero, if it is a 64-bit word. Numbers of more than twenty
digits are not, and need not be spelled out. -/
def toWord? (d : Decimal) : Option Int :=
  if d.units = 0 ∨ d.size ≤ 0 then some 0
  else if 20 < d.size then none
  else
    let i :=
      if 0 ≤ d.scale then d.units.tdiv (10 ^ d.scale.toNat)
      else d.units * 10 ^ (-d.scale).toNat
    if -2 ^ (63 : Nat) ≤ i ∧ i < 2 ^ (63 : Nat) then some i else none

end ConstraintSearch.Decimal

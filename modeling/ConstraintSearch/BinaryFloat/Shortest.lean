import ConstraintSearch.BinaryFloat.Magnitude
import ConstraintSearch.Text.Numeral

/-!
# Shortest decimal digits

The shortest decimal digits that stand for a magnitude: for a growing number of digits, the
two neighbours of the value on that decimal grid are tried, and the first grid is taken on
which one of them rounds back to the magnitude. If both do, the nearer one is taken, and the
upper one if they are equally near.

Reading back is tested and not derived, and the exact decimal expansion stands by in case no
grid should have a hit, so that the digits found always round back to the magnitude.
-/

namespace ConstraintSearch

-- Powers are those of the core library, also where other instances are in scope.
attribute [local instance (high)] instPowNat

/-- A positive decimal number `0.d₁d₂… * 10 ^ point`. -/
structure DecimalDigits where
  digits : List Char
  point : Int

namespace Magnitude

variable {w : Width}

/-- The magnitude nearest to `c * 10 ^ x`. -/
def ofDecimal? (w : Width) (c : Nat) (x : Int) : Option (Magnitude w) :=
  if 0 ≤ x then round? w (c * 10 ^ x.toNat) 1 0 else round? w c (10 ^ (-x).toNat) 0

/-- The integer `k` with `10 ^ k ≤ n / d < 10 ^ (k + 1)`, for positive `n` and `d`. -/
def ratioLog10 (n d : Nat) : Int :=
  if d ≤ n then (Text.digitCount (n / d) : Int) - 1
  else -(Text.digitCount ((d + n - 1) / n - 1) : Int)

/-- The neighbour of the value with the given number of digits that rounds back to it, as a
whole number of the units of its last digit, which are `10 ^ x`. -/
def neighbour? (m : Magnitude w) (digits : Nat) : Option (Nat × Int) :=
  let (n, d) := m.ratio
  let x : Int := ratioLog10 n d - digits + 1
  let num := if 0 ≤ x then n else n * 10 ^ (-x).toNat
  let den := if 0 ≤ x then d * 10 ^ x.toNat else d
  let below := num / den
  let readsBack (c : Nat) : Bool := ofDecimal? w c x == some m
  if readsBack below then
    if den ≤ 2 * (num % den) && readsBack (below + 1) then some (below + 1, x)
    else some (below, x)
  else if readsBack (below + 1) then some (below + 1, x)
  else none

/-- The value as a whole number of units `10 ^ x`. -/
def exactDecimal (m : Magnitude w) : Nat × Int :=
  if w.unitExponent ≤ m.exponent then (m.significand <<< (m.exponent - w.unitExponent), 0)
  else
    let places := w.unitExponent - m.exponent
    (m.significand * 5 ^ places, -places)

/-- The shortest decimal number that rounds to the magnitude, as a whole number of units
`10 ^ x`. -/
def shortestDecimal (m : Magnitude w) : Nat × Int :=
  ((List.range w.roundTripDigits).findSome? fun i ↦ m.neighbour? (i + 1)).getD m.exactDecimal

/-- The shortest decimal digits of the magnitude, without zeros at the end; those of zero are
the digit zero. -/
def shortestDigits (m : Magnitude w) : DecimalDigits :=
  if m.isZero then ⟨['0'], 1⟩
  else
    let (c, x) := m.shortestDecimal
    let ds := Text.digits c
    ⟨(ds.reverse.dropWhile (· == '0')).reverse, x + ds.length⟩

end Magnitude

end ConstraintSearch

/-!
# Machine widths

Numbers are held at one of two widths. A width fixes the size of a machine word and the
shape of a binary floating-point number, so that words and floats are each defined once,
with the width as a parameter.
-/

namespace ConstraintSearch

/-- The two widths at which integers and floating-point numbers are stored. -/
inductive Width
  | w32
  | w64
  deriving DecidableEq

namespace Width

/-- Bits of a machine word. -/
def bits : Width → Nat
  | .w32 => 32
  | .w64 => 64

/-- Bits of the significand of a floating-point number, the leading one included. -/
def precision : Width → Nat
  | .w32 => 24
  | .w64 => 53

/-- The least positive floating-point number is `2 ^ (-unitExponent)`; every finite number
is a whole multiple of it. -/
def unitExponent : Width → Nat
  | .w32 => 149
  | .w64 => 1074

/-- The greatest power of two, counted in units, by which a significand is scaled. -/
def topExponent : Width → Nat
  | .w32 => 253
  | .w64 => 2045

/-- Decimal digits that always suffice to tell a floating-point number from all others. -/
def roundTripDigits : Width → Nat
  | .w32 => 9
  | .w64 => 17

theorem bits_pos (w : Width) : 0 < w.bits := by cases w <;> decide

theorem precision_pos (w : Width) : 0 < w.precision := by cases w <;> decide

end Width

end ConstraintSearch

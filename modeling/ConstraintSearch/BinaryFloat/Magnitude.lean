import ConstraintSearch.Width

/-!
# Floating-point magnitudes

The absolute values of the finite floating-point numbers of a width, and rounding to them.

A magnitude is `significand * 2 ^ exponent`, counted in *units*: the unit of a width is its
least positive number, so exponents are natural numbers. The significand is as long as the
precision unless the exponent is zero, which makes the representation of a value unique:
equality of magnitudes is equality of their values.

Everything that rounds does so once, by `Magnitude.round?`: the exact result is a ratio of
natural numbers times a power of two, and the nearest magnitude is found in integers, a tie
going to the even significand.
-/

namespace ConstraintSearch

-- Powers are those of the core library, also where other instances are in scope.
attribute [local instance (high)] instPowNat

/-- An absolute value on the floating-point grid of a width: `significand * 2 ^ exponent`
units. -/
structure Magnitude (w : Width) where
  significand : Nat
  exponent : Nat
  significand_lt : significand < 2 ^ w.precision
  normal : exponent = 0 ∨ 2 ^ (w.precision - 1) ≤ significand
  exponent_le : exponent ≤ w.topExponent
  deriving DecidableEq

/-- The quotient `n / d` rounded to the nearest natural number, a tie to the even one. -/
def roundQuotient (n d : Nat) : Nat :=
  let q := n / d
  let twice := 2 * (n % d)
  if twice < d then q
  else if d < twice then q + 1
  else if q % 2 = 0 then q else q + 1

/-- The integer `l` with `2 ^ l ≤ n / d < 2 ^ (l + 1)`, for positive `n` and `d`. The
difference of the two logarithms is at most one too large. -/
def ratioLog2 (n d : Nat) : Int :=
  let l : Int := (n.log2 : Int) - d.log2
  let reached := if 0 ≤ l then d <<< l.toNat ≤ n else d ≤ n <<< (-l).toNat
  if reached then l else l - 1

namespace Magnitude

variable {w : Width}

/-- The magnitude zero. -/
def zero (w : Width) : Magnitude w where
  significand := 0
  exponent := 0
  significand_lt := Nat.two_pow_pos _
  normal := .inl rfl
  exponent_le := Nat.zero_le _

instance : Inhabited (Magnitude w) := ⟨zero w⟩

/-- Whether the magnitude is zero. -/
def isZero (m : Magnitude w) : Bool :=
  m.significand == 0

/-- The magnitude of a significand and an exponent that are in normal form and in range. -/
def ofParts? (w : Width) (significand exponent : Nat) : Option (Magnitude w) :=
  if h : significand < 2 ^ w.precision ∧
      (exponent = 0 ∨ 2 ^ (w.precision - 1) ≤ significand) ∧ exponent ≤ w.topExponent then
    some ⟨significand, exponent, h.1, h.2.1, h.2.2⟩
  else none

/-- The magnitude nearest to `n / d * 2 ^ k`, a tie going to the even significand; `none` if
that lies beyond the greatest one. The exponent is the least at which the rounded significand
fits the precision, or zero if that would be negative; a significand that is rounded up to
the next power of two moves to the next exponent. -/
def round? (w : Width) (n d : Nat) (k : Int) : Option (Magnitude w) :=
  if n = 0 then some (zero w)
  else
    let exponent := (ratioLog2 n d + k + w.unitExponent - (w.precision - 1)).toNat
    let shift := k + w.unitExponent - exponent
    let significand :=
      if 0 ≤ shift then roundQuotient (n <<< shift.toNat) d
      else roundQuotient n (d <<< (-shift).toNat)
    if significand = 2 ^ w.precision then ofParts? w (2 ^ (w.precision - 1)) (exponent + 1)
    else ofParts? w significand exponent

/-- Magnitudes are ordered by their exponents first: a number with a longer significand at a
smaller exponent is still smaller. -/
def order (a b : Magnitude w) : Ordering :=
  (compare a.exponent b.exponent).then (compare a.significand b.significand)

/-- The value as a ratio of natural numbers. -/
def ratio (m : Magnitude w) : Nat × Nat :=
  if w.unitExponent ≤ m.exponent then (m.significand <<< (m.exponent - w.unitExponent), 1)
  else (m.significand, 1 <<< (w.unitExponent - m.exponent))

/-- The greatest integer that is not above the value. -/
def floor (m : Magnitude w) : Nat :=
  m.ratio.1 / m.ratio.2

end Magnitude

end ConstraintSearch

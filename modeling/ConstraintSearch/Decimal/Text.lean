import ConstraintSearch.Decimal.Basic

/-!
# Text of decimal numbers

Decimals are written so that their scale can be seen: without an exponent as long as that
takes few zeros, with all decimal places kept, and with an exponent otherwise. The reader
takes underscores between digits, a point anywhere between the characters of the numeral, and
an exponent.
-/

namespace ConstraintSearch.Decimal

-- Powers are those of the core library, also where other instances are in scope.
attribute [local instance (high)] instPowNat

/-- The greatest number of zeros behind the point before the first digit. -/
def greatestLeadingZeros : Int := 5

/-- The greatest number of zeros that are appended to the digits. -/
def greatestTrailingZeros : Int := 15

/-- An exponent with its sign. -/
def writeExponent (e : Int) : List Char :=
  if 0 ≤ e then '+' :: Text.writeInt e else Text.writeInt e

/-- The digits with an exponent after the first one, for numbers that are small. -/
def writeScientific (ds : List Char) (scale : Int) : List Char :=
  ds.take 1 ++ (if ds.length ≤ 1 then [] else '.' :: ds.drop 1) ++
    'E' :: writeExponent (ds.length - 1 - scale)

/-- The digits without an exponent, the scale being the number of decimal places. -/
def writePlain (ds : List Char) (scale : Int) : List Char :=
  if scale ≤ 0 then ds ++ List.replicate (-scale).toNat '0'
  else
    let places := scale.toNat
    if ds.length ≤ places then
      '0' :: '.' :: (List.replicate (places - ds.length) '0' ++ ds)
    else ds.take (ds.length - places) ++ '.' :: ds.drop (ds.length - places)

/-- Writes the absolute value. A zero is written plainly whatever its scale is, but for the
least scale, which has no opposite. -/
def writeAbs (n : Nat) (scale : Int) : List Char :=
  let ds := Text.digits n
  if scale = leastScale then ds ++ 'e' :: writeExponent (-scale)
  else
    let scale := if n = 0 then 0 else scale
    if greatestLeadingZeros < scale - ds.length then writeScientific ds scale
    else if greatestTrailingZeros < -scale then ds ++ 'e' :: writeExponent (-scale)
    else writePlain ds scale

/-- Writes a decimal. -/
def write (d : Decimal) : List Char :=
  (if d.units < 0 then ['-'] else []) ++ writeAbs d.units.natAbs d.scale

/-- Reads a nonempty run of digits and underscores that does not begin with an underscore. -/
def readUnits (cs : List Char) : Option Nat :=
  match cs with
  | [] => none
  | '_' :: _ => none
  | _ =>
    if cs.all fun c ↦ c.isDigit || c == '_' then
      some (Text.ofDigits (cs.filter (· != '_')))
    else none

/-- Reads digits with an optional plus. -/
def readUnsigned : List Char → Option Nat
  | '+' :: cs => readUnits cs
  | cs => readUnits cs

/-- Reads digits with an optional sign. -/
def readSigned : List Char → Option Int
  | '-' :: '+' :: _ => none
  | '-' :: cs => (readUnsigned cs).map fun n ↦ -(n : Int)
  | cs => (readUnsigned cs).map fun n ↦ (n : Int)

/-- Takes the point out of a numeral and counts the decimal places behind it. -/
def splitPoint (cs : List Char) : List Char × Nat :=
  match cs.span (· != '.') with
  | (whole, '.' :: fraction) => (whole ++ fraction, (fraction.filter (· != '_')).length)
  | _ => (cs, 0)

/-- Takes the exponent off a numeral; one that is written has to be a 128-bit integer. -/
def splitExponent (cs : List Char) : Option (List Char × Int) :=
  match cs.span fun c ↦ c != 'e' && c != 'E' with
  | (base, _ :: exponent) =>
    match Text.readInt (-2 ^ (127 : Nat)) (2 ^ (127 : Nat) - 1) exponent with
    | .ok e => some (base, e)
    | .error _ => none
  | (base, []) => some (base, 0)

/-- Reads a decimal, whose scale has to be in range. -/
def read (cs : List Char) : Option Decimal := do
  let (base, exponent) ← splitExponent cs
  let (numeral, places) := splitPoint base
  let units ← readSigned numeral
  let scale : Int := places - exponent
  if leastScale ≤ scale ∧ scale ≤ greatestScale then some ⟨units, scale⟩ else none

end ConstraintSearch.Decimal

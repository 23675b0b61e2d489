import ConstraintSearch.BinaryFloat.Basic
import ConstraintSearch.BinaryFloat.Shortest

/-!
# Text of floating-point numbers

Numbers are written with their shortest digits in one of two layouts, and read from decimal
numerals of any length with a single rounding to the width that is asked for.
-/

namespace ConstraintSearch

/-- How the digits of a number are laid out. -/
structure FloatLayout where
  /-- Whether a number whose leading digit has the given decimal exponent is written without
  an exponent. -/
  positional : Int → Bool
  /-- Whether whole numbers written without an exponent end in `.0`. -/
  wholePoint : Bool

/-- Values are written without an exponent, whatever their size, and whole numbers without a
point. -/
def FloatLayout.plain : FloatLayout where
  positional _ := true
  wholePoint := false

/-- Constants inside terms show that they are no integers: whole numbers keep `.0`, and from
`10 ^ 16` on and below `10 ^ (-4)` an exponent is written. -/
def FloatLayout.marked : FloatLayout where
  positional e := -4 ≤ e && e < 16
  wholePoint := true

namespace DecimalDigits

/-- Writes the digits with the point at its place, padded with zeros. -/
def positional (wholePoint : Bool) (d : DecimalDigits) : List Char :=
  if d.point ≤ 0 then '0' :: '.' :: (List.replicate (-d.point).toNat '0' ++ d.digits)
  else
    let before := d.point.toNat
    if d.digits.length ≤ before then
      d.digits ++ List.replicate (before - d.digits.length) '0' ++
        if wholePoint then ['.', '0'] else []
    else d.digits.take before ++ '.' :: d.digits.drop before

/-- Writes the first digit, the others behind a point, and the exponent of the first. -/
def scientific (d : DecimalDigits) : List Char :=
  d.digits.take 1 ++ (if d.digits.length ≤ 1 then [] else '.' :: d.digits.drop 1) ++
    'e' :: Text.writeInt (d.point - 1)

/-- Writes the digits in a layout. -/
def write (layout : FloatLayout) (d : DecimalDigits) : List Char :=
  if layout.positional (d.point - 1) then d.positional layout.wholePoint else d.scientific

end DecimalDigits

namespace BinaryFloat

variable {w : Width}

/-- Writes a number in a layout. A NaN is written without a sign. -/
def write (layout : FloatLayout) : BinaryFloat w → List Char
  | .nan => ['N', 'a', 'N']
  | .infinite s => sign s ++ ['i', 'n', 'f']
  | .finite s m => sign s ++ m.shortestDigits.write layout
where
  /-- A minus before negative numbers. -/
  sign (negative : Bool) : List Char :=
    if negative then ['-'] else []

/-- The number nearest to `c * 10 ^ x`. Numbers of more than four hundred digits before the
point, or with more than four hundred zeros behind it, are not spelled out: they are beyond
the greatest number, or below half the least one, at either width. -/
def ofDecimal (w : Width) (negative : Bool) (c : Nat) (x : Int) : BinaryFloat w :=
  let size := x + Text.digitCount c
  if c = 0 then .finite negative (Magnitude.zero w)
  else if 400 < size then .infinite negative
  else if size < -400 then .finite negative (Magnitude.zero w)
  else
    match Magnitude.ofDecimal? w c x with
    | some m => .finite negative m
    | none => .infinite negative

/-- Reads the exponent at the end of a numeral: nothing, or a letter `e`, an optional sign
and at least one digit. -/
def readExponent : List Char → Option Int
  | [] => some 0
  | c :: cs =>
    if c = 'e' ∨ c = 'E' then
      match cs with
      | '-' :: ds => (magnitude ds).map fun n ↦ -(n : Int)
      | '+' :: ds => (magnitude ds).map fun n ↦ (n : Int)
      | ds => (magnitude ds).map fun n ↦ (n : Int)
    else none
where
  /-- The number of a nonempty run of digits. -/
  magnitude (ds : List Char) : Option Nat :=
    if !ds.isEmpty && ds.all Char.isDigit then some (Text.ofDigits ds) else none

/-- Reads a number without its sign: a word for an infinity or a NaN in any case, or digits
with an optional point, at least one digit on one side of it, and an optional exponent. -/
def readUnsigned (w : Width) (negative : Bool) (cs : List Char) : Option (BinaryFloat w) :=
  let word := String.ofList (cs.map Char.toLower)
  if word = "nan" then some .nan
  else if word = "inf" ∨ word = "infinity" then some (.infinite negative)
  else
    let whole := cs.takeWhile Char.isDigit
    let rest := cs.dropWhile Char.isDigit
    let (fraction, tail) : List Char × List Char :=
      match rest with
      | '.' :: after => (after.takeWhile Char.isDigit, after.dropWhile Char.isDigit)
      | _ => ([], rest)
    if whole.isEmpty && fraction.isEmpty then none
    else (readExponent tail).map fun e ↦
      ofDecimal w negative (Text.ofDigits (whole ++ fraction)) (e - fraction.length)

/-- Reads a number with an optional sign. -/
def read (w : Width) : List Char → Option (BinaryFloat w)
  | '-' :: cs => readUnsigned w true cs
  | '+' :: cs => readUnsigned w false cs
  | cs => readUnsigned w false cs

end BinaryFloat

end ConstraintSearch

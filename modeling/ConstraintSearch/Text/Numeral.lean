/-!
# Decimal numerals

Writing a natural number in decimal digits, reading digits back, and reading a signed
numeral that has to lie in a range. Reading a signed numeral goes from left to right and
reports the first thing that goes wrong, so a numeral that leaves its range before an
invalid character is out of range, and one that meets the character first is not a numeral.
-/

namespace ConstraintSearch.Text

/-- The decimal digits of a natural number, most significant first. -/
def digits (n : Nat) : List Char :=
  Nat.toDigits 10 n

/-- The natural number that a list of decimal digits stands for. -/
def ofDigits (cs : List Char) : Nat :=
  Nat.ofDigitChars 10 cs 0

/-- How many decimal digits a number has. -/
def digitCount (n : Nat) : Nat :=
  (digits n).length

/-- Reading digits undoes writing them. -/
@[simp] theorem ofDigits_digits (n : Nat) : ofDigits (digits n) = n :=
  Nat.ofDigitChars_ten_toDigits

/-- Why a text is not a numeral of its range. -/
inductive NumeralError
  | empty
  | invalidDigit
  | tooLarge
  | tooSmall
  deriving DecidableEq

/-- The wording of a numeral error. -/
def NumeralError.message : NumeralError → String
  | .empty => "cannot parse integer from empty string"
  | .invalidDigit => "invalid digit found in string"
  | .tooLarge => "number too large to fit in target type"
  | .tooSmall => "number too small to fit in target type"

/-- Reads the digits of a numeral onto the number read so far, away from zero in the
direction of the sign, and stops at the first character that is no digit or leaves the
range. -/
def readDigits (negative : Bool) (least greatest : Int) :
    Int → List Char → Except NumeralError Int
  | read, [] => .ok read
  | read, c :: cs =>
    if c.isDigit then
      let digit : Int := c.toNat - '0'.toNat
      let next := if negative then 10 * read - digit else 10 * read + digit
      if next < least then .error .tooSmall
      else if greatest < next then .error .tooLarge
      else readDigits negative least greatest next cs
    else .error .invalidDigit

/-- Reads an integer: an optional sign, then at least one digit, in the given range. -/
def readInt (least greatest : Int) : List Char → Except NumeralError Int
  | [] => .error .empty
  | ['+'] | ['-'] => .error .invalidDigit
  | '+' :: cs => readDigits false least greatest 0 cs
  | '-' :: cs => readDigits true least greatest 0 cs
  | cs => readDigits false least greatest 0 cs

/-- The decimal numeral of an integer. -/
def writeInt : Int → List Char
  | .ofNat n => digits n
  | .negSucc n => '-' :: digits (n + 1)

end ConstraintSearch.Text

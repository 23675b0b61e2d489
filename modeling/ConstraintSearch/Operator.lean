/-!
# Operators

The comparisons, the arithmetic operators, the boolean operators and the shifts, which source
expressions and engine terms share. A comparison is decided from the outcome of a *partial*
ordering: two numbers may be unordered (a NaN is unordered with everything), and then only `≠`
holds.
-/

namespace ConstraintSearch

/-- The six comparisons of numbers. -/
inductive Comparison
  | eq
  | ne
  | ge
  | gt
  | le
  | lt
  deriving DecidableEq

namespace Comparison

/-- How the comparison is written. -/
def symbol : Comparison → String
  | .eq => "=="
  | .ne => "!="
  | .ge => ">="
  | .gt => ">"
  | .le => "<="
  | .lt => "<"

/-- Whether the comparison holds of two numbers that are ordered as given; `none` means
that they are unordered. -/
def holds : Comparison → Option Ordering → Bool
  | .eq, o => o == some .eq
  | .ne, o => o != some .eq
  | .ge, o => o == some .gt || o == some .eq
  | .gt, o => o == some .gt
  | .le, o => o == some .lt || o == some .eq
  | .lt, o => o == some .lt

end Comparison

/-- The five arithmetic operators. -/
inductive ArithmeticOp
  | add
  | sub
  | mul
  | div
  | rem
  deriving DecidableEq

/-- How the operator is written. -/
def ArithmeticOp.symbol : ArithmeticOp → String
  | .add => "+"
  | .sub => "-"
  | .mul => "*"
  | .div => "/"
  | .rem => "%"

/-- The operators on booleans that also act on words bit by bit. -/
inductive BooleanOp
  | and
  | or
  | xor
  deriving DecidableEq

namespace BooleanOp

/-- How the operator on words is written. -/
def symbol : BooleanOp → String
  | .and => "&"
  | .or => "|"
  | .xor => "^"

/-- How the operator on booleans is written in engine terms. -/
def name : BooleanOp → String
  | .and => "and"
  | .or => "or"
  | .xor => "xor"

/-- The operator on booleans. -/
def onBool : BooleanOp → Bool → Bool → Bool
  | .and, a, b => a && b
  | .or, a, b => a || b
  | .xor, a, b => a ^^ b

/-- The operator on words, bit by bit. -/
def onBits {n : Nat} : BooleanOp → BitVec n → BitVec n → BitVec n
  | .and, a, b => a &&& b
  | .or, a, b => a ||| b
  | .xor, a, b => a ^^^ b

end BooleanOp

/-- The three shifts: to the left, to the right filling with the sign, and to the right
filling with zeros. -/
inductive ShiftOp
  | left
  | right
  | rightZero
  deriving DecidableEq

/-- How the shift is written. -/
def ShiftOp.symbol : ShiftOp → String
  | .left => "<<"
  | .right => ">>"
  | .rightZero => ">>>"

end ConstraintSearch

import ConstraintSearch.Operator
import ConstraintSearch.Text.Numeral
import ConstraintSearch.Width

/-!
# Machine words

Signed integers of a fixed width in two's complement. Sums, differences and products wrap;
quotients truncate toward zero and have no value for a zero divisor; of a shift distance only
the low bits count, so that negative and oversized distances are meaningful too.
-/

namespace ConstraintSearch

-- Powers are those of the core library, also where other instances are in scope.
attribute [local instance (high)] instPowNat

/-- A machine word of the given width, read as a signed number by `BitVec.toInt`. -/
abbrev Word (w : Width) : Type :=
  BitVec w.bits

namespace Word

variable {w : Width}

/-- The word congruent to an integer modulo two to the width. -/
def wrap (w : Width) (i : Int) : Word w :=
  BitVec.ofInt w.bits i

/-- The least number that a word holds. -/
def least (w : Width) : Int :=
  -2 ^ (w.bits - 1)

/-- The greatest number that a word holds. -/
def greatest (w : Width) : Int :=
  2 ^ (w.bits - 1) - 1

/-- The word closest to an integer: numbers out of range become the nearer end of the
range. -/
def saturate (w : Width) (i : Int) : Word w :=
  if i < least w then wrap w (least w)
  else if greatest w < i then wrap w (greatest w)
  else wrap w i

/-- The value of an arithmetic operator; a quotient or remainder by zero has none. -/
def arithmetic? (op : ArithmeticOp) (a b : Word w) : Option (Word w) :=
  match op with
  | .add => some (a + b)
  | .sub => some (a - b)
  | .mul => some (a * b)
  | .div => if b = 0 then none else some (a.sdiv b)
  | .rem => if b = 0 then none else some (a.srem b)

/-- The signed order of two words. -/
def order (a b : Word w) : Ordering :=
  compare a.toInt b.toInt

/-- How many places a distance shifts a word of the width `w`: of its bits it keeps the lowest
ones, as many as tell the bits of the word apart. -/
def places (w : Width) {n : Nat} (d : BitVec n) : Nat :=
  (d &&& BitVec.ofNat n (w.bits - 1)).toNat

/-- The value of a shift by a number of places. -/
def shift (op : ShiftOp) (a : Word w) (n : Nat) : Word w :=
  match op with
  | .left => a <<< n
  | .right => a.sshiftRight n
  | .rightZero => a >>> n

/-- Reads a word from its decimal numeral. -/
def read (w : Width) (cs : List Char) : Option (Word w) :=
  match Text.readInt (least w) (greatest w) cs with
  | .ok i => some (wrap w i)
  | .error _ => none

/-- The decimal numeral of a word. -/
def write (a : Word w) : List Char :=
  Text.writeInt a.toInt

end Word

end ConstraintSearch

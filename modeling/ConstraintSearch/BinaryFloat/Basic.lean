import ConstraintSearch.BinaryFloat.Magnitude

/-!
# Binary floating-point numbers

The numbers of the two binary interchange formats: not-a-number, the infinities, and signed
magnitudes with a positive and a negative zero. There is one NaN, so equality of terms is
equality of bit patterns with all NaNs identified, and *numeric* equality, under which the
two zeros agree and a NaN agrees with nothing, is read off the partial order.
-/

namespace ConstraintSearch

/-- A floating-point number of the given width. -/
inductive BinaryFloat (w : Width)
  | nan
  | infinite (negative : Bool)
  | finite (negative : Bool) (magnitude : Magnitude w)
  deriving DecidableEq

namespace BinaryFloat

variable {w : Width}

/-- Positive zero. -/
def zero (w : Width) : BinaryFloat w :=
  .finite false (Magnitude.zero w)

instance : Inhabited (BinaryFloat w) := ⟨zero w⟩

/-- The number nearest to `n / d * 2 ^ k` with the given sign; what lies beyond the greatest
finite number becomes infinite. -/
def ofRatio (w : Width) (negative : Bool) (n d : Nat) (k : Int) : BinaryFloat w :=
  match Magnitude.round? w n d k with
  | some m => .finite negative m
  | none => .infinite negative

/-- The number nearest to `i * 2 ^ k`. An exact zero has no sign of its own and takes the one
given. -/
def ofScaledInt (w : Width) (zeroNegative : Bool) (i k : Int) : BinaryFloat w :=
  if i = 0 then .finite zeroNegative (Magnitude.zero w)
  else ofRatio w (i < 0) i.natAbs 1 k

/-- The number nearest to an integer. -/
def ofInt (w : Width) (i : Int) : BinaryFloat w :=
  ofScaledInt w false i 0

/-- Whether the number is a NaN. -/
def isNaN : BinaryFloat w → Bool
  | .nan => true
  | _ => false

/-- Whether the number is one of the two zeros. -/
def isZero : BinaryFloat w → Bool
  | .finite _ m => m.isZero
  | _ => false

/-- The number with its sign changed. -/
def neg : BinaryFloat w → BinaryFloat w
  | .nan => .nan
  | .infinite s => .infinite (!s)
  | .finite s m => .finite (!s) m

/-- The order of two numbers; a NaN is unordered with everything, and the zeros are equal. -/
def order? : BinaryFloat w → BinaryFloat w → Option Ordering
  | .nan, _ => none
  | _, .nan => none
  | .infinite s, .infinite t => some (compare t s)
  | .infinite s, .finite _ _ => some (if s then .lt else .gt)
  | .finite _ _, .infinite t => some (if t then .gt else .lt)
  | .finite false m, .finite false n => some (m.order n)
  | .finite true m, .finite true n => some (n.order m)
  | .finite false m, .finite true n => some (if m.isZero && n.isZero then .eq else .gt)
  | .finite true m, .finite false n => some (if m.isZero && n.isZero then .eq else .lt)

@[simp] theorem neg_neg (x : BinaryFloat w) : x.neg.neg = x := by
  cases x <;> simp [neg]

end BinaryFloat

end ConstraintSearch

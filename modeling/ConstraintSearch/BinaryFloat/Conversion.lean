import ConstraintSearch.BinaryFloat.Basic
import ConstraintSearch.Word

/-!
# Conversions of floating-point numbers

Between the two widths, to machine words, and to whole numbers. Conversion to a word
truncates toward zero and saturates, and a NaN becomes zero.
-/

namespace ConstraintSearch.BinaryFloat

variable {w : Width}

/-- The number of the given width nearest to a number; a number of that width stays as it
is. -/
def toWidth (v : Width) (x : BinaryFloat w) : BinaryFloat v :=
  if h : w = v then h ▸ x
  else
    match x with
    | .nan => .nan
    | .infinite s => .infinite s
    | .finite s m => ofRatio v s m.significand 1 ((m.exponent : Int) - w.unitExponent)

@[simp] theorem toWidth_self (x : BinaryFloat w) : x.toWidth w = x := by
  simp [toWidth]

/-- The word nearest to the number truncated toward zero. -/
def toWord (v : Width) : BinaryFloat w → Word v
  | .nan => 0
  | .infinite s => Word.wrap v (if s then Word.least v else Word.greatest v)
  | .finite s m => Word.saturate v (if s then -m.floor else m.floor)

/-- The number nearest to a word. -/
def ofWord {v : Width} (w : Width) (a : Word v) : BinaryFloat w :=
  ofInt w a.toInt

/-- The greatest whole number that is not above the given one. A number between zero and one
becomes positive zero and a negative zero stays what it is. -/
def floor : BinaryFloat w → BinaryFloat w
  | .nan => .nan
  | .infinite s => .infinite s
  | .finite false m => ofScaledInt w false m.floor 0
  | .finite true m =>
    let n := m.floor
    let exact := n * m.ratio.2 = m.ratio.1
    ofScaledInt w true (if exact then -n else -(n + 1)) 0

end ConstraintSearch.BinaryFloat

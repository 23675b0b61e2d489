import ConstraintSearch.BinaryFloat.Arithmetic
import ConstraintSearch.BinaryFloat.Conversion

/-!
# Elementary functions

The functions that a formula may call, on 64-bit numbers. Apart from `round`, which is
`floor (x + 1/2)`, they are the functions of the machine's mathematical library, reached
through the binary interchange format: the bit pattern of a magnitude is its exponent times
`2 ^ 52` plus its significand, whether it is subnormal or not.
-/

namespace ConstraintSearch

-- Powers are those of the core library, also where other instances are in scope.
attribute [local instance (high)] instPowNat

/-- The functions of one argument. -/
inductive UnaryFunction
  | sin
  | cos
  | tan
  | asin
  | acos
  | atan
  | exp
  | log
  | log10
  | sqrt
  | round
  deriving DecidableEq

/-- The functions of two arguments. -/
inductive BinaryFunction
  | atan2
  | pow
  deriving DecidableEq

namespace BinaryFloat

/-- The interchange format of a 64-bit number. -/
def toBits : BinaryFloat .w64 → UInt64
  | .nan => 0x7FF8000000000000
  | .infinite s => 0x7FF0000000000000 + signBit s
  | .finite s m => UInt64.ofNat (m.exponent * 2 ^ (52 : Nat) + m.significand) + signBit s
where
  /-- The bit of the sign. -/
  signBit (negative : Bool) : UInt64 :=
    if negative then 0x8000000000000000 else 0

/-- The 64-bit number of an interchange format. -/
def ofBits (bits : UInt64) : BinaryFloat .w64 :=
  let negative := 0x8000000000000000 ≤ bits
  let rest := (bits &&& 0x7FFFFFFFFFFFFFFF).toNat
  if 0x7FF0000000000000 < rest then .nan
  else
    let parts :=
      if rest < 2 ^ (52 : Nat) then (rest, 0)
      else (rest % 2 ^ (52 : Nat) + 2 ^ (52 : Nat), rest / 2 ^ (52 : Nat) - 1)
    match Magnitude.ofParts? .w64 parts.1 parts.2 with
    | some m => .finite negative m
    | none => .infinite negative

/-- The machine's number. -/
private def toMachine (x : BinaryFloat .w64) : Float :=
  Float.ofBits x.toBits

/-- The number that a machine's number is. -/
private def ofMachine (x : Float) : BinaryFloat .w64 :=
  ofBits x.toBits

/-- One half. -/
private def half : BinaryFloat .w64 :=
  ofRatio .w64 false 1 1 (-1)

/-- The nearest whole number, a half going up. -/
def round (x : BinaryFloat .w64) : BinaryFloat .w64 :=
  (x.add half).floor

end BinaryFloat

/-- How the function is written. -/
def UnaryFunction.name : UnaryFunction → String
  | .sin => "sin"
  | .cos => "cos"
  | .tan => "tan"
  | .asin => "asin"
  | .acos => "acos"
  | .atan => "atan"
  | .exp => "exp"
  | .log => "log"
  | .log10 => "log10"
  | .sqrt => "sqrt"
  | .round => "round"

/-- The value of the function. -/
def UnaryFunction.apply (f : UnaryFunction) (x : BinaryFloat .w64) : BinaryFloat .w64 :=
  let machine (g : Float → Float) := BinaryFloat.ofMachine (g x.toMachine)
  match f with
  | .sin => machine Float.sin
  | .cos => machine Float.cos
  | .tan => machine Float.tan
  | .asin => machine Float.asin
  | .acos => machine Float.acos
  | .atan => machine Float.atan
  | .exp => machine Float.exp
  | .log => machine Float.log
  | .log10 => machine Float.log10
  | .sqrt => machine Float.sqrt
  | .round => x.round

/-- How the function is written. -/
def BinaryFunction.name : BinaryFunction → String
  | .atan2 => "atan2"
  | .pow => "pow"

/-- The value of the function. -/
def BinaryFunction.apply (f : BinaryFunction) (x y : BinaryFloat .w64) : BinaryFloat .w64 :=
  let machine (g : Float → Float → Float) := BinaryFloat.ofMachine (g x.toMachine y.toMachine)
  match f with
  | .atan2 => machine Float.atan2
  | .pow => machine Float.pow

end ConstraintSearch

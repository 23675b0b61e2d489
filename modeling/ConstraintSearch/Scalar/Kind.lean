import ConstraintSearch.BinaryFloat.Arithmetic
import ConstraintSearch.BinaryFloat.Conversion

/-!
# Kinds

The kinds of data that a search engine computes with: booleans, and integers and
floating-point numbers at two widths. A kind is a boolean or a *numeric* kind, so that what
only makes sense for numbers takes a numeric kind and needs no case for booleans.
-/

namespace ConstraintSearch

/-- The kinds of numbers. -/
inductive NumKind
  | integral (w : Width)
  | real (w : Width)
  deriving DecidableEq

/-- The kinds of data. -/
inductive Kind
  | bool
  | num (k : NumKind)
  deriving DecidableEq

namespace NumKind

/-- Integers of 32 bits. -/
@[match_pattern] abbrev int : NumKind := .integral .w32

/-- Integers of 64 bits. -/
@[match_pattern] abbrev long : NumKind := .integral .w64

/-- Floating-point numbers of 32 bits. -/
@[match_pattern] abbrev float : NumKind := .real .w32

/-- Floating-point numbers of 64 bits. -/
@[match_pattern] abbrev double : NumKind := .real .w64

/-- The numbers of a kind. -/
@[reducible] def Carrier : NumKind → Type
  | .integral w => Word w
  | .real w => BinaryFloat w

/-- How the kind is written. -/
def name : NumKind → String
  | .int => "int"
  | .long => "long"
  | .float => "float"
  | .double => "double"

/-- Whether the numbers of the kind are integers. -/
def isIntegral : NumKind → Bool
  | .integral _ => true
  | .real _ => false

instance instDecidableEqCarrier : (k : NumKind) → DecidableEq k.Carrier
  | .integral w => inferInstanceAs (DecidableEq (Word w))
  | .real w => inferInstanceAs (DecidableEq (BinaryFloat w))

/-- The number of a kind that an integer becomes: words wrap and floats round. -/
def ofInt : (k : NumKind) → Int → k.Carrier
  | .integral w, i => Word.wrap w i
  | .real w, i => BinaryFloat.ofInt w i

/-- The number of one kind that a number of another becomes. Words are extended by their sign
or lose their high bits, a float becomes an integer by truncation and saturation, and a result
that is a float is the nearest one. -/
def convert : (k v : NumKind) → k.Carrier → v.Carrier
  | .integral _, .integral v, x => Word.wrap v x.toInt
  | .integral _, .real v, x => BinaryFloat.ofWord v x
  | .real _, .integral v, x => x.toWord v
  | .real _, .real v, x => x.toWidth v

/-- The order of two numbers of a kind; floats may be unordered. -/
def order? : (k : NumKind) → k.Carrier → k.Carrier → Option Ordering
  | .integral _, x, y => some (Word.order x y)
  | .real _, x, y => BinaryFloat.order? x y

/-- The value of an arithmetic operator on two numbers of a kind. An integer has no quotient
and no remainder by zero. -/
def arithmetic? : (k : NumKind) → ArithmeticOp → k.Carrier → k.Carrier → Option k.Carrier
  | .integral _, op, x, y => Word.arithmetic? op x y
  | .real _, op, x, y => some (BinaryFloat.arithmetic op x y)

end NumKind

namespace Kind

@[match_pattern] abbrev int : Kind := .num .int

@[match_pattern] abbrev long : Kind := .num .long

@[match_pattern] abbrev float : Kind := .num .float

@[match_pattern] abbrev double : Kind := .num .double

/-- The data of a kind. -/
@[reducible] def Carrier : Kind → Type
  | .bool => Bool
  | .num k => k.Carrier

instance instDecidableEqCarrier : (k : Kind) → DecidableEq k.Carrier
  | .bool => inferInstanceAs (DecidableEq Bool)
  | .num k => NumKind.instDecidableEqCarrier k

/-- How the kind is written. -/
def name : Kind → String
  | .bool => "bool"
  | .num k => k.name

/-- Whether the data of the kind are integers. -/
def isIntegral : Kind → Bool
  | .bool => false
  | .num k => k.isIntegral

/-- Whether the data of the kind are floating-point numbers. -/
def isReal : Kind → Bool
  | .bool => false
  | .num k => !k.isIntegral

/-- Whether the data of the kind are numbers. -/
def isNumeric : Kind → Bool
  | .bool => false
  | .num _ => true

/-- The value that an unknown of the kind has when nothing is known of it. -/
def seed : (k : Kind) → k.Carrier
  | .bool => true
  | .num k => k.ofInt 0

end Kind

end ConstraintSearch

import ConstraintSearch.Decimal.Arithmetic
import ConstraintSearch.Scalar.Kind
import ConstraintSearch.Text.Case

/-!
# Types of source expressions

The types of the source language: booleans, and the numeric types, which are the machine
kinds of numbers and, on top of them, decimals. Numeric types form a chain, from 32-bit
integers to decimals, and two numbers of different types meet at the greater one.
-/

namespace ConstraintSearch

/-- The numeric types. -/
inductive NumTy
  | machine (k : NumKind)
  | decimal
  deriving DecidableEq

/-- The types. -/
inductive Ty
  | bool
  | num (t : NumTy)
  deriving DecidableEq

namespace NumTy

/-- The numbers of a type. -/
@[reducible] def Carrier : NumTy → Type
  | .machine k => k.Carrier
  | .decimal => Decimal

/-- The place of a numeric type in the chain. -/
def rank : NumTy → Nat
  | .machine .int => 0
  | .machine .long => 1
  | .machine .float => 2
  | .machine .double => 3
  | .decimal => 4

/-- The type at which numbers of two types meet. -/
def join (s t : NumTy) : NumTy :=
  if t.rank ≤ s.rank then s else t

/-- Whether the numbers of the type are integers. -/
def isIntegral : NumTy → Bool
  | .machine k => k.isIntegral
  | .decimal => false

/-- The order of two numbers of a type; floats may be unordered. -/
def order? : (t : NumTy) → t.Carrier → t.Carrier → Option Ordering
  | .machine k, x, y => k.order? x y
  | .decimal, x, y => some (Decimal.order x y)

/-- The value of an arithmetic operator on two numbers of a type; integers and decimals have
no quotient and no remainder by zero. -/
def arithmetic? : (t : NumTy) → ArithmeticOp → t.Carrier → t.Carrier → Option t.Carrier
  | .machine k, op, x, y => k.arithmetic? op x y
  | .decimal, op, x, y => Decimal.arithmetic? op x y

/-- The number with its sign changed; the least integer of a machine kind stays what it
is. -/
def neg : (t : NumTy) → t.Carrier → t.Carrier
  | .machine (.integral _), x => -x
  | .machine (.real _), x => BinaryFloat.neg x
  | .decimal, x => Decimal.neg x

theorem join_self (t : NumTy) : t.join t = t := by
  simp [join]

end NumTy

namespace Ty

@[match_pattern] abbrev int : Ty := .num (.machine .int)

@[match_pattern] abbrev long : Ty := .num (.machine .long)

@[match_pattern] abbrev float : Ty := .num (.machine .float)

@[match_pattern] abbrev double : Ty := .num (.machine .double)

@[match_pattern] abbrev decimal : Ty := .num .decimal

/-- The values of a type. -/
@[reducible] def Carrier : Ty → Type
  | .bool => Bool
  | .num t => t.Carrier

/-- How the type is written. -/
def name : Ty → String
  | .bool => "bool"
  | .int => "sint32"
  | .long => "sint64"
  | .float => "float"
  | .double => "double"
  | .decimal => "decimal"

/-- The place of a type in the order of types. -/
def rank : Ty → Nat
  | .bool => 0
  | .num t => t.rank + 1

/-- Whether the values of the type are integers. -/
def isIntegral : Ty → Bool
  | .bool => false
  | .num t => t.isIntegral

/-- Whether the values of the type are numbers but no integers. -/
def isReal : Ty → Bool
  | .bool => false
  | .num t => !t.isIntegral

/-- Whether the values of the type are numbers. -/
def isNumeric : Ty → Bool
  | .bool => false
  | .num _ => true

/-- The type at which values of two types meet, if both are numeric. -/
def join? : Ty → Ty → Option Ty
  | .num s, .num t => some (.num (s.join t))
  | _, _ => none

/-- The kind of data that an engine uses for the type; decimals have none. -/
def kind? : Ty → Option Kind
  | .bool => some .bool
  | .num (.machine k) => some (.num k)
  | .num .decimal => none

/-- The type of the data of a kind. -/
def ofKind : Kind → Ty
  | .bool => .bool
  | .num k => .num (.machine k)

/-- Reads the name of a type, or one of its other names, in any case. -/
def read? (s : String) : Option Ty :=
  match Text.lowercase s with
  | "bool" | "boolean" => some .bool
  | "sint32" | "int" | "i32" => some .int
  | "sint64" | "long" | "i64" => some .long
  | "float" | "f32" => some .float
  | "double" | "f64" => some .double
  | "decimal" | "bigdecimal" => some .decimal
  | _ => none

@[simp] theorem kind?_ofKind (k : Kind) : (ofKind k).kind? = some k := by
  cases k <;> rfl

theorem ofKind_of_kind? {t : Ty} {k : Kind} (h : t.kind? = some k) : ofKind k = t := by
  match t with
  | .bool => cases h; rfl
  | .num (.machine _) => cases h; rfl
  | .num .decimal => cases h

end Ty

end ConstraintSearch

import ConstraintSearch.Decimal.Conversion
import ConstraintSearch.Decimal.Text
import ConstraintSearch.Formula.Ty
import ConstraintSearch.Scalar.Basic
import ConstraintSearch.Text.Blank

/-!
# Values of source expressions

A value is a datum together with its type: a scalar, or a decimal. Values are read and written
as text, compared by their numbers, and cast from one numeric type to another.
-/

namespace ConstraintSearch

namespace NumKind

/-- The number that a cast makes of a number of a machine kind. It is the converted number,
except that 32-bit floats are reached through 64-bit ones, so that what is not a float is
rounded twice. -/
def cast : (k v : NumKind) → k.Carrier → v.Carrier
  | .float, .float, x => x
  | k, .float, x => (k.convert .double x).toWidth .w32
  | k, v, x => k.convert v x

end NumKind

namespace NumTy

/-- The number that a cast makes of a number of a type, if there is one: NaNs and infinities
are no decimals, and decimals out of the range of 64 bits are no integers. -/
def cast? : (s t : NumTy) → s.Carrier → Option t.Carrier
  | .machine k, .machine v, x => some (k.cast v x)
  | .machine (.integral _), .decimal, x => some (Decimal.ofInt x.toInt)
  | .machine (.real _), .decimal, x => Decimal.ofFloat? (x.toWidth .w64)
  | .decimal, .machine (.integral v), d => d.toWord?.map (Word.wrap v)
  | .decimal, .machine (.real v), d => some (d.toFloat.toWidth v)
  | .decimal, .decimal, d => some d

end NumTy

instance Ty.instDecidableEqCarrier : (t : Ty) → DecidableEq t.Carrier
  | .bool => inferInstanceAs (DecidableEq Bool)
  | .num (.machine k) => NumKind.instDecidableEqCarrier k
  | .num .decimal => inferInstanceAs (DecidableEq Decimal)

/-- A datum of some type. -/
structure Value where
  ty : Ty
  datum : ty.Carrier
  deriving DecidableEq

/-- Why a text cannot be read as a value: it is no value of the type. -/
structure ValueReadError where
  ty : Ty
  text : String
  deriving DecidableEq

/-- The wording of the error. -/
def ValueReadError.message (e : ValueReadError) : String :=
  "cannot parse '" ++ e.text ++ "' as " ++ e.ty.name

namespace Value

/-- A boolean value. -/
@[match_pattern] abbrev ofBool (b : Bool) : Value := ⟨.bool, b⟩

instance : Inhabited Value := ⟨ofBool true⟩

/-- The value that a scalar is. -/
def ofScalar : Scalar → Value
  | ⟨.bool, b⟩ => ⟨.bool, b⟩
  | ⟨.num k, x⟩ => ⟨.num (.machine k), x⟩

/-- The scalar that the value is, unless it is a decimal. -/
def toScalar? : Value → Option Scalar
  | ⟨.bool, b⟩ => some ⟨.bool, b⟩
  | ⟨.num (.machine k), x⟩ => some ⟨.num k, x⟩
  | ⟨.num .decimal, _⟩ => none

/-! ### Text -/

/-- Reads a datum from a text without blanks around it. -/
def readDatum? : (t : Ty) → List Char → Option t.Carrier
  | .bool, cs => Scalar.read .bool cs
  | .num (.machine k), cs => Scalar.read (.num k) cs
  | .num .decimal, cs => Decimal.read cs

/-- Reads a value of the given type; blanks around it do not count. -/
def read (t : Ty) (text : String) : Except ValueReadError Value :=
  match readDatum? t (Text.trim text.toList) with
  | some x => .ok ⟨t, x⟩
  | none => .error ⟨t, text⟩

/-- Writes a value. -/
def write : Value → List Char
  | ⟨.bool, b⟩ => Scalar.write ⟨.bool, b⟩
  | ⟨.num (.machine k), x⟩ => Scalar.write ⟨.num k, x⟩
  | ⟨.num .decimal, d⟩ => Decimal.write d

/-- The text of a value. -/
def text (v : Value) : String :=
  String.ofList v.write

/-! ### Tests -/

/-- Whether the value is a machine number that is zero; a decimal never counts. -/
def isMachineZero : Value → Bool
  | ⟨.num (.machine (.integral _)), x⟩ => x == 0
  | ⟨.num (.machine (.real _)), x⟩ => x.isZero
  | _ => false

/-- Whether the value is a number that is zero. -/
def isZero : Value → Bool
  | ⟨.num .decimal, d⟩ => d.isZero
  | v => v.isMachineZero

/-- The boolean that the value is. -/
def toBool? : Value → Option Bool
  | ⟨.bool, b⟩ => some b
  | ⟨.num _, _⟩ => none

/-- Whether two values have the same type and are equal in it: a NaN equals nothing, the two
zeros are equal, and decimals are compared by value. -/
def equal : Value → Value → Bool
  | ⟨.bool, a⟩, ⟨.bool, b⟩ => a == b
  | ⟨.num s, x⟩, ⟨.num t, y⟩ => if h : s = t then t.order? (h ▸ x) y == some .eq else false
  | _, _ => false

/-! ### Casts -/

/-- The datum of the given type that a cast makes of the value. A boolean is cast to nothing
but a boolean, and a number to nothing but numbers. -/
def castTo? : Value → (t : Ty) → Option t.Carrier
  | ⟨.bool, b⟩, .bool => some b
  | ⟨.num s, x⟩, .num t => s.cast? t x
  | ⟨.bool, _⟩, .num _ => none
  | ⟨.num _, _⟩, .bool => none

/-- The value of the given type that a cast makes of the value. -/
def cast? (v : Value) (t : Ty) : Option Value :=
  (v.castTo? t).map fun x ↦ ⟨t, x⟩

/-- The 64-bit floating-point number near a number. -/
def toDouble? (v : Value) : Option (BinaryFloat .w64) :=
  v.castTo? .double

@[simp] theorem toScalar?_ofScalar (s : Scalar) : (ofScalar s).toScalar? = some s := by
  obtain ⟨k, x⟩ := s
  cases k <;> rfl

end Value

end ConstraintSearch

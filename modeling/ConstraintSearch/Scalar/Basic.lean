import ConstraintSearch.BinaryFloat.Text
import ConstraintSearch.Scalar.Kind

/-!
# Scalars

A scalar is a datum together with its kind. Scalars are what engines assign to unknowns; they
convert freely between numeric kinds, and not at all between booleans and numbers.
-/

namespace ConstraintSearch

/-- A datum of some kind. -/
structure Scalar where
  kind : Kind
  value : kind.Carrier
  deriving DecidableEq

namespace Scalar

/-- The scalar that an unknown of a kind has when nothing is known of it. -/
def seed (k : Kind) : Scalar := ⟨k, k.seed⟩

instance : Inhabited Scalar := ⟨seed .bool⟩

/-- The datum of a kind that the scalar becomes. -/
def convert? : Scalar → (k : Kind) → Option k.Carrier
  | ⟨.bool, b⟩, .bool => some b
  | ⟨.bool, _⟩, .num _ => none
  | ⟨.num _, _⟩, .bool => none
  | ⟨.num k, x⟩, .num v => some (k.convert v x)

/-- Reads a scalar of the given kind. -/
def read : (k : Kind) → List Char → Option k.Carrier
  | .bool, cs =>
    if cs = ['t', 'r', 'u', 'e'] then some true
    else if cs = ['f', 'a', 'l', 's', 'e'] then some false
    else none
  | .num (.integral w), cs => Word.read w cs
  | .num (.real w), cs => BinaryFloat.read w cs

/-- Writes a scalar. -/
def write : Scalar → List Char
  | ⟨.bool, true⟩ => ['t', 'r', 'u', 'e']
  | ⟨.bool, false⟩ => ['f', 'a', 'l', 's', 'e']
  | ⟨.num (.integral _), x⟩ => Word.write x
  | ⟨.num (.real _), x⟩ => x.write .plain

/-- The text of a scalar. -/
def text (s : Scalar) : String :=
  String.ofList s.write

end Scalar

end ConstraintSearch

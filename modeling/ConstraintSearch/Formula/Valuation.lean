import ConstraintSearch.Formula.Value
import ConstraintSearch.Table

/-!
# Variables and valuations

A variable is a name together with a type, so that variables of one name and different types
are different. A valuation gives values to variables; nothing ties the type of the value to
the type of the variable.
-/

namespace ConstraintSearch

/-- A typed variable. -/
structure Variable where
  name : String
  ty : Ty
  deriving DecidableEq

/-- Variables are ordered by their names, and those of one name by their types. -/
instance : Ord Variable where
  compare x y := (compare x.name y.name).then (compare x.ty.rank y.ty.rank)

/-- Values of variables. -/
abbrev Valuation : Type :=
  Table Variable Value

namespace Valuation

/-- Gives a variable the value that a text stands for at the type of the variable. -/
def insertText (v : Valuation) (x : Variable) (text : String) :
    Except ValueReadError Valuation :=
  match Value.read x.ty text with
  | .ok value => .ok (v.insert x value)
  | .error e => .error e

/-- The text of a valuation: its entries in the order of the variables. -/
def text (v : Valuation) : String :=
  "\x7b" ++ ", ".intercalate (v.entries.map fun e ↦ e.1.name ++ ":=" ++ e.2.text) ++ "\x7d"

end Valuation

end ConstraintSearch

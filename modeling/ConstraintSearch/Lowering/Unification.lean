import ConstraintSearch.Formula.Expr
import ConstraintSearch.Term.Basic

/-!
# Unification of operands

The engine takes operands of one kind only, so two numeric terms are brought to one kind
before an operator is built on them, by explicit conversions:

* an integer next to a float becomes a 64-bit float, and the float is kept as it is;
* of two floats the narrow one becomes a 64-bit float;
* of two integers the *wide* one is narrowed to 32 bits.

Where the kinds still differ after that, a 32-bit float next to a converted integer, the
operands cannot be unified.
-/

namespace ConstraintSearch

/-- Why a source expression has no counterpart among the terms of the engine. -/
inductive LoweringError
  | notBoolean (found : NumKind)
  | notNumeric
  | incompatibleOperands (left right : NumKind)
  | unsupportedOperator (op : BitOp) (kind : NumKind)
  | bitsMismatch (op : BitOp) (left right : NumKind)
  | unsupportedConnective (op : Connective)
  | unsupportedCast (source target : Ty)
  | unknownFunction (name : String)
  | functionArity (name : String) (expected found : Nat)
  | unsupportedVariable (x : Variable)
  deriving DecidableEq

/-- The wording of the error. -/
def LoweringError.message : LoweringError → String
  | .notBoolean found => "expected a boolean expression, found " ++ found.name
  | .notNumeric => "expected a numeric operand, found " ++ Kind.bool.name
  | .incompatibleOperands left right =>
    "operands of kind " ++ left.name ++ " and " ++ right.name ++ " cannot be unified"
  | .unsupportedOperator op kind =>
    "operator " ++ op.symbol ++ " is not supported on " ++ kind.name
  | .bitsMismatch op left right =>
    "bitvector operator " ++ op.symbol ++ " not supported for " ++ left.name ++ " and " ++
      right.name
  | .unsupportedConnective op => "connective " ++ op.symbol ++ " is not supported"
  | .unsupportedCast source target => "cannot cast " ++ source.name ++ " to " ++ target.name
  | .unknownFunction name => "unknown function '" ++ name ++ "'"
  | .functionArity name expected found =>
    "function '" ++ name ++ "' expects " ++ toString expected ++ " argument(s), got " ++
      toString found
  | .unsupportedVariable x =>
    "variable '" ++ x.name ++ "' of type " ++ x.ty.name ++ " has no symbolic counterpart"

namespace NumTerm

/-- The term, converted to a 64-bit float if it is none. -/
def widened (t : NumTerm) : NumTerm :=
  ⟨.double, t.intoDouble⟩

/-- The term, converted to a 32-bit integer if it is none. -/
def narrowed (t : NumTerm) : NumTerm :=
  ⟨.int, t.intoInt⟩

/-- The two operands with the conversions that their kinds ask for. -/
def aligned (l r : NumTerm) : NumTerm × NumTerm :=
  match l.kind, r.kind with
  | .integral .w32, .integral .w64 => (l, r.narrowed)
  | .integral .w64, .integral .w32 => (l.narrowed, r)
  | .integral _, .integral _ => (l, r)
  | .integral _, .real _ => (l.widened, r)
  | .real _, .integral _ => (l, r.widened)
  | .real .w32, .real .w64 => (l.widened, r)
  | .real .w64, .real .w32 => (l, r.widened)
  | .real _, .real _ => (l, r)

/-- The two operands at one kind. -/
def unify (l r : NumTerm) : Except LoweringError TermPair :=
  let (l, r) := l.aligned r
  match l.pair? r with
  | some p => .ok p
  | none => .error (.incompatibleOperands l.kind r.kind)

end NumTerm

end ConstraintSearch

import ConstraintSearch.Table
import ConstraintSearch.Term.Basic

/-!
# Evaluation of terms

The meaning of a term under an assignment of scalars to literals. Evaluation is strict and
goes from left to right: every operand is evaluated, also those of boolean operators, and the
first failure is the result. A literal that is assigned a number of another kind than its own
has the converted number.
-/

namespace ConstraintSearch

/-- The scalars that literals have. -/
abbrev Assignment : Type :=
  Table Nat Scalar

/-- Why a term has no value. -/
inductive TermError
  | unbound (id : Nat)
  | kindMismatch (id : Nat) (expected found : Kind)
  | divisionByZero
  deriving DecidableEq

/-- The wording of the error. -/
def TermError.message : TermError → String
  | .unbound id => "literal " ++ toString id ++ " has no value in the environment"
  | .kindMismatch id expected found =>
    "literal " ++ toString id ++ " is " ++ expected.name ++ " but the environment holds a " ++
      found.name
  | .divisionByZero => "integer division by zero"

/-- The datum that an assignment gives to a literal of a kind. -/
def Assignment.lookup (σ : Assignment) (k : Kind) (id : Nat) : Except TermError k.Carrier :=
  match σ.get? id with
  | none => .error (.unbound id)
  | some s =>
    match s.convert? k with
    | some v => .ok v
    | none => .error (.kindMismatch id k s.kind)

namespace Term

/-- The value of a term under an assignment. -/
def evaluate (σ : Assignment) : {k : Kind} → Term k → Except TermError k.Carrier
  | _, .const v => .ok v
  | k, .lit id => σ.lookup k id
  | _, .not t => do
    let b ← t.evaluate σ
    return !b
  | _, .logic op l r => do
    let a ← l.evaluate σ
    let b ← r.evaluate σ
    return op.onBool a b
  | _, @compare n op l r => do
    let x ← l.evaluate σ
    let y ← r.evaluate σ
    return op.holds (n.order? x y)
  | _, @arith n op l r => do
    let x ← l.evaluate σ
    let y ← r.evaluate σ
    match n.arithmetic? op x y with
    | some z => return z
    | none => throw .divisionByZero
  | _, .bitwise op l r => do
    let x ← l.evaluate σ
    let y ← r.evaluate σ
    return op.onBits x y
  | _, @shift w op _ l r => do
    let x ← l.evaluate σ
    let y ← r.evaluate σ
    return Word.shift op x (Word.places w y)
  | _, @toInt n t => do
    let x ← t.evaluate σ
    return n.convert .int x
  | _, @toDouble n t => do
    let x ← t.evaluate σ
    return n.convert .double x
  | _, .apply f t => do
    let x ← t.evaluate σ
    return f.apply x
  | _, .apply₂ f l r => do
    let x ← l.evaluate σ
    let y ← r.evaluate σ
    return f.apply x y

end Term

/-- The value of a term of any kind. -/
def KindedTerm.evaluate (σ : Assignment) (t : KindedTerm) : Except TermError Scalar := do
  let v ← t.term.evaluate σ
  return ⟨t.kind, v⟩

end ConstraintSearch

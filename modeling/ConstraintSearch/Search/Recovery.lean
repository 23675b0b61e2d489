import ConstraintSearch.Formula.Valuation
import ConstraintSearch.Lowering.Basic

/-!
# Recovery of valuations

The way back from an assignment of scalars to literals to a valuation of variables. The
engine may assign a scalar of another kind than the literal has; it is converted to the
declared type of the variable, written as text, and read as a value of that type. Either all
variables can be recovered, or the valuation stays what it was.
-/

namespace ConstraintSearch

/-- The text of the scalar that stands for a variable of the given type: a number of another
kind is converted first, and what cannot be converted is written as it is. -/
def recoveredText (t : Ty) (s : Scalar) : String :=
  match t.kind? with
  | some k =>
    if s.kind = k then s.text
    else
      match s.convert? k with
      | some v => (⟨k, v⟩ : Scalar).text
      | none => s.text
  | none => s.text

/-- The scalar of a binding: what is assigned to its literal, or else its seed. -/
def Binding.scalar (σ : Assignment) (b : Binding) : Scalar :=
  (σ.get? b.literal.id).getD b.literal.seed

/-- The values of the bound variables in the order of the bindings. -/
def recoverAll (σ : Assignment) : List Binding → Except ValueReadError (List (Variable × Value))
  | [] => .ok []
  | b :: bs => do
    let value ← Value.read b.var.ty (recoveredText b.var.ty (b.scalar σ))
    return (b.var, value) :: (← recoverAll σ bs)

/-- The valuation with the recovered values of all bound variables. -/
def recover (bindings : List Binding) (σ : Assignment) (v : Valuation) :
    Except ValueReadError Valuation := do
  let values ← recoverAll σ bindings
  return values.foldl (fun v e ↦ v.insert e.1 e.2) v

end ConstraintSearch

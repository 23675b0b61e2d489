import ConstraintSearch.Proofs.Lowering.Kinds

/-!
# The faithful fragment

Lowering does not keep the meaning of every expression. Four things change it: a decimal
constant becomes a float, a wide integer next to a narrow one is narrowed, a constant zero is
left out together with what it would have converted, and a cast may be left out, or lead to
another type than its target. An expression is *faithful* if none of them happens at any of
its nodes.
-/

namespace ConstraintSearch.Expr

/-- The terms of the two expressions are integers of different widths: by `Lowers.kind?_eq` the
kind of an expression is that of its term. -/
def MixesIntegers (l r : Expr) : Prop :=
  l.kind? = some .int ∧ r.kind? = some .long ∨ l.kind? = some .long ∧ r.kind? = some .int

/-- The node itself keeps its meaning if its operands do. -/
def FaithfulNode : Expr → Prop
  | .const v => v.ty ≠ .decimal
  | .compare _ l r => ¬ MixesIntegers l r
  | .arith op l r => ¬ MixesIntegers l r ∧
      (op = .add ∨ op = .sub → l.isMachineZero = false ∧ r.isMachineZero = false)
  | .cast target e => (∃ k, target.kind? = some k ∧ e.kind? = some k) ∨
      (target = .int ∨ target = .double) ∧ target ≠ e.ty
  | _ => True

/-- All nodes of an expression keep their meaning. -/
def Faithful (e : Expr) : Prop :=
  ∀ n ∈ e.nodes, n.FaithfulNode

namespace Faithful

variable {e l r : Expr}

theorem self (h : e.Faithful) : e.FaithfulNode :=
  h e e.self_mem_nodes

theorem of_not (h : (Expr.not e).Faithful) : e.Faithful :=
  fun n hn ↦ h n (List.mem_cons_of_mem _ hn)

theorem of_neg (h : (Expr.neg e).Faithful) : e.Faithful :=
  fun n hn ↦ h n (List.mem_cons_of_mem _ hn)

theorem of_cast {target : Ty} (h : (Expr.cast target e).Faithful) : e.Faithful :=
  fun n hn ↦ h n (List.mem_cons_of_mem _ hn)

/-- The operands of a node with two operands. -/
theorem of_pair {e : Expr} (h : e.Faithful) (he : e.nodes = e :: (l.nodes ++ r.nodes)) :
    l.Faithful ∧ r.Faithful :=
  ⟨fun n hn ↦ h n (by simp [he, hn]), fun n hn ↦ h n (by simp [he, hn])⟩

theorem of_call {name : String} {args : List Expr} (h : (Expr.call name args).Faithful)
    (he : e ∈ args) : e.Faithful :=
  fun n hn ↦ h n (List.mem_cons_of_mem _ (mem_nodesAll.2 ⟨e, he, hn⟩))

end Faithful

end ConstraintSearch.Expr

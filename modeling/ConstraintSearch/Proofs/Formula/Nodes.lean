import ConstraintSearch.Formula.Expr

/-!
# Nodes and variables of expressions

Structural induction over expressions, and the two things that are read off a whole
expression: its *nodes*, which are its subexpressions with the expression itself, and the
*occurrences of variables* in it from left to right. What holds of every node for the same reason
is shown with `Expr.induction_operands`, which only asks for the step from the operands.

The list of arguments of a call makes the syntax tree a nested one. `Expr.induction` hides
that: a proof sees the arguments of a call as expressions for which the claim holds already.
-/

namespace ConstraintSearch.Expr

/-- Structural induction over expressions. -/
@[elab_as_elim, induction_eliminator]
theorem induction {P : Expr → Prop}
    (const : ∀ v, P (.const v)) (var : ∀ x, P (.var x))
    (not : ∀ e, P e → P (.not e)) (neg : ∀ e, P e → P (.neg e))
    (compare : ∀ op l r, P l → P r → P (.compare op l r))
    (arith : ∀ op l r, P l → P r → P (.arith op l r))
    (connect : ∀ op l r, P l → P r → P (.connect op l r))
    (bits : ∀ op l r, P l → P r → P (.bits op l r))
    (cast : ∀ target e, P e → P (.cast target e))
    (call : ∀ name args, (∀ e ∈ args, P e) → P (.call name args)) (e : Expr) : P e :=
  Expr.rec (motive_2 := fun es ↦ ∀ e ∈ es, P e) const var not neg compare arith connect bits
    cast call (by simp) (fun _ _ he hes ↦ List.forall_mem_cons.2 ⟨he, hes⟩) e

/-! ### Nodes -/

mutual

/-- The subexpressions of an expression, the expression itself in front. -/
def nodes : Expr → List Expr
  | .const v => [.const v]
  | .var x => [.var x]
  | .not e => .not e :: e.nodes
  | .neg e => .neg e :: e.nodes
  | .compare op l r => .compare op l r :: (l.nodes ++ r.nodes)
  | .arith op l r => .arith op l r :: (l.nodes ++ r.nodes)
  | .connect op l r => .connect op l r :: (l.nodes ++ r.nodes)
  | .bits op l r => .bits op l r :: (l.nodes ++ r.nodes)
  | .cast target e => .cast target e :: e.nodes
  | .call name args => .call name args :: nodesAll args

/-- The subexpressions of a list of expressions. -/
def nodesAll : List Expr → List Expr
  | [] => []
  | e :: es => e.nodes ++ nodesAll es

end

@[simp] theorem self_mem_nodes (e : Expr) : e ∈ e.nodes := by
  cases e <;> simp [nodes]

theorem mem_nodesAll {n : Expr} {es : List Expr} :
    n ∈ nodesAll es ↔ ∃ e ∈ es, n ∈ e.nodes := by
  induction es with
  | nil => simp [nodesAll]
  | cons e es ih => simp [nodesAll, ih]

/-! ### Operands -/

/-- The operands of the operator or function at the root, from left to right. -/
def operands : Expr → List Expr
  | .const _ => []
  | .var _ => []
  | .not e => [e]
  | .neg e => [e]
  | .compare _ l r => [l, r]
  | .arith _ l r => [l, r]
  | .connect _ l r => [l, r]
  | .bits _ l r => [l, r]
  | .cast _ e => [e]
  | .call _ args => args

/-- Below the root are the subexpressions of its operands. -/
theorem mem_nodes_iff {n e : Expr} : n ∈ e.nodes ↔ n = e ∨ ∃ a ∈ e.operands, n ∈ a.nodes := by
  cases e <;> simp [nodes, operands, mem_nodesAll]

/-- Structural induction over expressions, for what holds of all nodes for the same reason. -/
@[elab_as_elim]
theorem induction_operands {P : Expr → Prop} (node : ∀ e, (∀ a ∈ e.operands, P a) → P e)
    (e : Expr) : P e := by
  have hpair {l r : Expr} (hl : P l) (hr : P r) : ∀ a ∈ [l, r], P a :=
    List.forall_mem_cons.2 ⟨hl, List.forall_mem_singleton.2 hr⟩
  induction e with
  | const v => exact node _ (List.forall_mem_nil _)
  | var x => exact node _ (List.forall_mem_nil _)
  | not e ih => exact node _ (List.forall_mem_singleton.2 ih)
  | neg e ih => exact node _ (List.forall_mem_singleton.2 ih)
  | compare op l r ihl ihr => exact node _ (hpair ihl ihr)
  | arith op l r ihl ihr => exact node _ (hpair ihl ihr)
  | connect op l r ihl ihr => exact node _ (hpair ihl ihr)
  | bits op l r ihl ihr => exact node _ (hpair ihl ihr)
  | cast target e ih => exact node _ (List.forall_mem_singleton.2 ih)
  | call name args ih => exact node _ ih

/-- The subexpressions of a subexpression are subexpressions. -/
theorem nodes_subset {n e : Expr} (h : n ∈ e.nodes) : n.nodes ⊆ e.nodes := by
  induction e using induction_operands with
  | node e ih =>
    obtain rfl | ⟨a, ha, hn⟩ := mem_nodes_iff.1 h
    · exact List.Subset.refl _
    · exact fun m hm ↦ mem_nodes_iff.2 (.inr ⟨a, ha, ih a ha hn hm⟩)

/-! ### Variables -/

mutual

/-- The occurrences of variables in an expression from left to right. -/
def vars : Expr → List Variable
  | .const _ => []
  | .var x => [x]
  | .not e => e.vars
  | .neg e => e.vars
  | .compare _ l r => l.vars ++ r.vars
  | .arith _ l r => l.vars ++ r.vars
  | .connect _ l r => l.vars ++ r.vars
  | .bits _ l r => l.vars ++ r.vars
  | .cast _ e => e.vars
  | .call _ args => varsAll args

/-- The occurrences of variables in a list of expressions from left to right. -/
def varsAll : List Expr → List Variable
  | [] => []
  | e :: es => e.vars ++ varsAll es

end

theorem mem_varsAll {x : Variable} {es : List Expr} :
    x ∈ varsAll es ↔ ∃ e ∈ es, x ∈ e.vars := by
  induction es with
  | nil => simp [varsAll]
  | cons e es ih => simp [varsAll, ih]

/-- The variables of an expression are those among its nodes. -/
theorem mem_vars_iff {x : Variable} {e : Expr} : x ∈ e.vars ↔ .var x ∈ e.nodes := by
  induction e with
  | const v => simp [vars, nodes]
  | var y => simp [vars, nodes]
  | not e ih => simp [vars, nodes, ih]
  | neg e ih => simp [vars, nodes, ih]
  | compare op l r ihl ihr => simp [vars, nodes, ihl, ihr]
  | arith op l r ihl ihr => simp [vars, nodes, ihl, ihr]
  | connect op l r ihl ihr => simp [vars, nodes, ihl, ihr]
  | bits op l r ihl ihr => simp [vars, nodes, ihl, ihr]
  | cast target e ih => simp [vars, nodes, ih]
  | call name args ih =>
    simp only [vars, nodes, mem_varsAll, mem_nodesAll, List.mem_cons, reduceCtorEq, false_or]
    exact exists_congr fun e ↦ and_congr_right (ih e)

end ConstraintSearch.Expr

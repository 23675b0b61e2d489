import ConstraintSearch.Proofs.Lowering.Derivation
import ConstraintSearch.Proofs.Lowering.Symmetry
import ConstraintSearch.Proofs.Term.Nodes

/-!
# The size of terms

A term has at most six times as many nodes as its expression, and at most three times as many if it
is a number. A node of an expression becomes one node of the term, and lowering adds little to it: a
conversion of each argument of a function, one conversion for the two operands of any other operator
(`NumTerm.length_nodes_unify_le`), and two nodes for a minus sign.

The one exception is the test for a NaN, which doubles its argument. What keeps this from adding up
is that the test is a boolean while its argument is a number, and that no number has a boolean in
it. So there are two bounds, by the kind of the term (`Kind.growth`), and on the way up from the
leaves the smaller one is given up once at most.
-/

namespace ConstraintSearch

/-- How many nodes a term of the kind has at most for each node of its expression. -/
def Kind.growth : Kind → Nat
  | .bool => 6
  | .num _ => 3

/-! ### Conversions -/

namespace NumTerm

theorem length_nodes_intoInt_le (t : NumTerm) :
    t.intoInt.nodes.length ≤ t.term.nodes.length + 1 := by
  match t with
  | ⟨.int, t⟩ => exact Nat.le_succ _
  | ⟨.long, t⟩ => exact le_rfl
  | ⟨.real _, t⟩ => exact le_rfl

theorem length_nodes_intoDouble_le (t : NumTerm) :
    t.intoDouble.nodes.length ≤ t.term.nodes.length + 1 := by
  match t with
  | ⟨.double, t⟩ => exact Nat.le_succ _
  | ⟨.float, t⟩ => exact le_rfl
  | ⟨.integral _, t⟩ => exact le_rfl

/-- Unification adds one node at most. -/
theorem length_nodes_unify_le {l r : NumTerm} {p : TermPair} (h : l.unify r = .ok p) :
    p.left.nodes.length + p.right.nodes.length ≤
      l.term.nodes.length + r.term.nodes.length + 1 := by
  have hleft : p.left.nodes.length = (l.aligned r).1.term.nodes.length := by
    rw [(pair?_eq_some_iff.1 (unify_eq_ok_iff.1 h)).1]
    rfl
  have hright : p.right.nodes.length = (l.aligned r).2.term.nodes.length := by
    rw [(pair?_eq_some_iff.1 (unify_eq_ok_iff.1 h)).2]
    rfl
  have hl : l.narrowed.term.nodes.length ≤ _ := l.length_nodes_intoInt_le
  have hr : r.narrowed.term.nodes.length ≤ _ := r.length_nodes_intoInt_le
  have hl' : l.widened.term.nodes.length ≤ _ := l.length_nodes_intoDouble_le
  have hr' : r.widened.term.nodes.length ≤ _ := r.length_nodes_intoDouble_le
  rw [hleft, hright]
  obtain h | h | h | h | h := aligned_cases l r <;> rw [h] <;> dsimp only <;> omega

end NumTerm

namespace Lower

theorem length_nodes_constant (v : Value) : (constant v).term.nodes.length = 1 := by
  match v with
  | ⟨.bool, _⟩ => rfl
  | ⟨.num (.machine _), _⟩ => rfl
  | ⟨.num .decimal, _⟩ => rfl

/-- An operand that stays alone is no larger than the operator would be. -/
theorem length_nodes_soleOperand?_le (op : ArithmeticOp) (l r : Expr) (p : TermPair) :
    ((soleOperand? op l r p).getD (p.arith op)).term.nodes.length ≤
      p.left.nodes.length + p.right.nodes.length + 1 := by
  obtain h | ⟨-, ⟨-, h⟩ | ⟨-, h⟩⟩ := soleOperand?_cases op l r p
  · rw [h]
    simp [TermPair.arith, Term.nodes]
  · rw [h]
    show p.right.nodes.length ≤ _
    omega
  · rw [h]
    show p.left.nodes.length ≤ _
    omega

end Lower

/-! ### Expressions -/

theorem Lowers.length_nodes_le {s s' : LoweringState} {e : Expr} {t : KindedTerm}
    (h : Lowers s e t s') : t.term.nodes.length ≤ t.kind.growth * e.nodes.length := by
  have hleaf (k : Kind) : 1 ≤ k.growth * 1 := by cases k <;> simp [Kind.growth]
  induction h with
  | const =>
    rw [Lower.length_nodes_constant]
    exact hleaf _
  | bound => exact hleaf _
  | fresh => exact hleaf _
  | not _ ih =>
    simp only [Lower.ofBool, Kind.growth, Term.nodes, Expr.nodes, List.length_cons] at ih ⊢
    omega
  | neg _ ih =>
    simp only [NumTerm.toKinded, Kind.growth, Term.nodes, Expr.nodes, List.length_cons,
      List.length_append, List.length_nil] at ih ⊢
    omega
  | compare _ _ hp ihl ihr =>
    have hunify := NumTerm.length_nodes_unify_le hp
    simp only [NumTerm.toKinded, Lower.ofBool, TermPair.compare, Kind.growth, Term.nodes,
      Expr.nodes, List.length_cons, List.length_append] at ihl ihr ⊢
    omega
  | @arith _ l r _ _ op _ _ p _ _ hp ihl ihr =>
    have hunify := NumTerm.length_nodes_unify_le hp
    have hsole := Lower.length_nodes_soleOperand?_le op l r p
    simp only [NumTerm.toKinded, Kind.growth, Expr.nodes, List.length_cons,
      List.length_append] at ihl ihr ⊢
    omega
  | logic _ _ ihl ihr =>
    simp only [Lower.ofBool, Kind.growth, Term.nodes, Expr.nodes, List.length_cons,
      List.length_append] at ihl ihr ⊢
    omega
  | bitwise _ _ ihl ihr =>
    simp only [Kind.growth, Term.nodes, Expr.nodes, List.length_cons,
      List.length_append] at ihl ihr ⊢
    omega
  | shift _ _ _ ihl ihr =>
    simp only [Kind.growth, Term.nodes, Expr.nodes, List.length_cons,
      List.length_append] at ihl ihr ⊢
    omega
  | castNone _ ih =>
    refine ih.trans (Nat.mul_le_mul_left _ ?_)
    simp [Expr.nodes]
  | @castInt _ _ _ _ n _ _ ih =>
    have hinto := n.length_nodes_intoInt_le
    simp only [NumTerm.toKinded, Kind.growth, Expr.nodes, List.length_cons] at ih ⊢
    omega
  | @castDouble _ _ _ _ n _ _ ih =>
    have hinto := n.length_nodes_intoDouble_le
    simp only [NumTerm.toKinded, Kind.growth, Expr.nodes, List.length_cons] at ih ⊢
    omega
  | @unary _ _ _ _ _ n _ _ ih =>
    have hinto := n.length_nodes_intoDouble_le
    simp only [NumTerm.toKinded, Kind.growth, Term.nodes, Expr.nodes, Expr.nodesAll,
      List.length_cons, List.length_append, List.length_nil] at ih ⊢
    omega
  | @binary _ _ _ _ _ _ _ lt rt _ _ _ ihl ihr =>
    have hl := lt.length_nodes_intoDouble_le
    have hr := rt.length_nodes_intoDouble_le
    simp only [NumTerm.toKinded, Kind.growth, Term.nodes, Expr.nodes, Expr.nodesAll,
      List.length_cons, List.length_append, List.length_nil] at ihl ihr ⊢
    omega
  | @isNaN _ _ _ _ n _ _ ih =>
    have hinto := n.length_nodes_intoDouble_le
    simp only [NumTerm.toKinded, Lower.ofBool, Kind.growth, Term.nodes, Expr.nodes, Expr.nodesAll,
      List.length_cons, List.length_append, List.length_nil] at ih ⊢
    omega

/-- A formula is not blown up by lowering. From every state, the term of an expression has at most
three times as many nodes as the expression if it is a number, and at most six times as many if it
is a boolean. -/
theorem Expr.length_nodes_lower_le {s s' : LoweringState} {e : Expr} {t : KindedTerm}
    (h : e.lower.run s = (.ok t, s')) :
    (t.kind.isNumeric = true → t.term.nodes.length ≤ 3 * e.nodes.length) ∧
      (t.kind = .bool → t.term.nodes.length ≤ 6 * e.nodes.length) := by
  have hle := (lowers_of_lower_run h).length_nodes_le
  obtain ⟨- | k, t⟩ := t
  · exact ⟨nofun, fun _ ↦ hle⟩
  · exact ⟨fun _ ↦ hle, nofun⟩

namespace TestedSum

/-! The test for a NaN of the sum of a float and a narrow integer. -/

def d : Variable := ⟨"d", .double⟩

def i : Variable := ⟨"i", .int⟩

def test : Expr := .call "isNaN" [.arith .add (.var d) (.var i)]

def sum : Term .double := .arith .add (.lit 0) (.toDouble (n := .int) (.lit 1))

/-- The four nodes become nine: the sum stands twice in the term, with a conversion. -/
theorem length_nodes_lower_le_test :
    test.lower.run ⟨[], 0⟩ =
        (.ok ⟨.bool, .compare .ne sum sum⟩, ⟨[⟨d, ⟨0, .double⟩⟩, ⟨i, ⟨1, .int⟩⟩], 2⟩) ∧
      test.nodes.length = 4 ∧ (Term.compare .ne sum sum).nodes.length = 9 ∧
      (Term.compare .ne sum sum).nodes.length ≤ 6 * test.nodes.length := by
  have hrun : test.lower.run ⟨[], 0⟩ =
      (.ok ⟨.bool, .compare .ne sum sum⟩, ⟨[⟨d, ⟨0, .double⟩⟩, ⟨i, ⟨1, .int⟩⟩], 2⟩) := rfl
  exact ⟨hrun, rfl, rfl, (Expr.length_nodes_lower_le hrun).2 rfl⟩

end TestedSum

end ConstraintSearch

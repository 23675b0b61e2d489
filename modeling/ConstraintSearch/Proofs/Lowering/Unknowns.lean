import ConstraintSearch.Proofs.Lowering.Numbering

/-!
# The unknowns of a path condition

An engine is told the unknowns of a path condition by a walk over its terms, which knows nothing
of the variables from which the literals come. It finds the literals of the variables of the
formula, each once, in the order in which the variables occur there: the terms have the
occurrences of the formula but for repetitions (`Lowers.mirrors`), and the literals determine
their variables (`LoweringState.Numbered`), so leaving out repetitions comes to the same on both
sides.
-/

namespace ConstraintSearch

namespace LoweringState

variable {s : LoweringState} {x : Variable} {xs : List Variable} {os : List (Nat × Kind)}

/-- The occurrences with one number are all of one kind. -/
theorem Mirrors.eq_of_id (h : s.Mirrors xs os) (hs : s.Numbered) {o p : Nat × Kind} (ho : o ∈ os)
    (hp : p ∈ os) (hid : o.1 = p.1) : o = p := by
  obtain ⟨x, -, hx⟩ := h.exists_var ho
  obtain ⟨y, -, hy⟩ := h.exists_var hp
  obtain rfl := hs.var_eq hx hy hid
  have hlit : (⟨o.1, o.2⟩ : Literal) = ⟨p.1, p.2⟩ := Option.some.inj (hx.symm.trans hy)
  exact Prod.ext hid (congrArg Literal.kind hlit)

/-- Repetitions of literals are repetitions of variables. -/
theorem Mirrors.firstOccurrences (h : s.Mirrors xs os) (hs : s.Numbered) :
    xs.eraseDups.map s.occurrence? = (PathCondition.firstOccurrences [] os).map some := by
  have hinj : ∀ x ∈ xs, ∀ y ∈ xs, s.occurrence? x = s.occurrence? y → x = y := by
    intro x hx y hy hxy
    obtain ⟨l, hl, -⟩ := h.covers x hx
    obtain ⟨m, hm, -⟩ := h.covers y hy
    rw [occurrence?, occurrence?, hl, hm] at hxy
    exact hs.var_eq hl hm (congrArg Prod.fst (Option.some.inj hxy))
  calc xs.eraseDups.map s.occurrence?
      = (xs.map s.occurrence?).eraseDups := (eraseDups_map hinj).symm
    _ = (os.map some).eraseDups := h
    _ = os.eraseDups.map some := eraseDups_map fun _ _ _ _ ↦ Option.some.inj
    _ = (PathCondition.firstOccurrences [] os).map some := by
      rw [PathCondition.firstOccurrences_eq fun o ho p hp ↦ h.eq_of_id hs ho hp]
      simp

end LoweringState

/-- From a state without bindings, the bound variables are those of the expression. -/
theorem Lowers.boundVars_of_nil {s s' : LoweringState} {e : Expr} {t : KindedTerm}
    (h : Lowers s e t s') (hs : s.bindings = []) (hu : s'.Unique) :
    s'.bindings.map Binding.var = e.vars.eraseDups := by
  have hvars := h.boundVars
  rw [hs] at hvars
  rw [← eraseDups_eq_self hu]
  exact hvars.symm

/-- The state after an expression has been lowered from a state without bindings: the variables of
the expression are bound, each of them once and to a literal of its kind, and no others. -/
structure Expr.BoundBy (e : Expr) (s : LoweringState) : Prop where
  unique : s.Unique
  kind?_eq : ∀ b ∈ s.bindings, b.var.ty.kind? = some b.literal.kind
  mem_iff : ∀ x, x ∈ s.bindings.map Binding.var ↔ x ∈ e.vars

theorem Lowers.boundBy {s : LoweringState} {e : Expr} {t : KindedTerm} {n : Nat}
    (h : Lowers ⟨[], n⟩ e t s) : e.BoundBy s := by
  have hunique := (LoweringState.unique_nil n).grows h.grows
  have hkind := (LoweringState.wellKinded_nil n).grows h.grows
  refine ⟨hunique, fun b hb ↦ hkind.kind?_eq hunique hb, fun x ↦ ?_⟩
  rw [h.boundVars_of_nil rfl hunique, List.mem_eraseDups]

theorem Expr.boundBy_of_lowerCondition_run {e : Expr} {pc : PathCondition} {s : LoweringState}
    {n : Nat} (h : e.lowerCondition.run ⟨[], n⟩ = (.ok pc, s)) : e.BoundBy s := by
  obtain ⟨t, ht, -⟩ := lowerCondition_run_iff.1 h
  exact ht.boundBy

namespace BoundBefore

/-! A pass that has bound the wide integer `n` and the boolean `b`, and has failed to compare
them, before it is asked for a formula in which `n` comes last and `b` not at all. -/

def b : Variable := ⟨"b", .bool⟩

def d : Variable := ⟨"d", .double⟩

def i : Variable := ⟨"i", .int⟩

def n : Variable := ⟨"n", .long⟩

def pass : LoweringState :=
  ((Expr.compare .lt (.var n) (.var b)).lower.run ⟨[], 3⟩).2

/-- The test for a NaN repeats its argument; the zero that is added to `i` and its cast are left
out. -/
def formula : Expr :=
  .connect (.boolean .and) (.call "isNaN" [.var d])
    (.compare .le (.cast .int (.arith .add (.var i) (.const (.ofScalar ⟨.int, 0#32⟩))))
      (.arith .mul (.var d) (.var n)))

end BoundBefore

end ConstraintSearch

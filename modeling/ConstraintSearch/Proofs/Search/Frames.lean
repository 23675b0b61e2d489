import ConstraintSearch.Proofs.Lowering.Bindings
import ConstraintSearch.Proofs.Nesting
import ConstraintSearch.Proofs.Term.Evaluation
import ConstraintSearch.Search.AssertionStack

/-!
# Frames of assertions

A stack of assertions is solved as one formula, a conjunction of conjunctions. It comes to the same
as if the assertions of all frames were lowered one by one, in one pass: the same error or the same
bindings, and the same truth value under every assignment. Lowering and evaluation both *interpret*
conjunctions (`Interprets`), so for neither of them the grouping into frames matters.
-/

namespace ConstraintSearch

open Lower

/-! ### Conjunctions are interpreted -/

/-- The path condition of a single constraint. -/
def PathCondition.single (t : Term .bool) : PathCondition :=
  ⟨[t]⟩

namespace Expr

theorem conjunction_eq_nest : conjunction = nest and (.const (.ofBool true)) := by
  funext es
  cases es <;> rfl

/-- The term of a boolean expression. -/
def lowerBool (e : Expr) : Lower (Term .bool) := do
  require (expectBool (← e.lower))

theorem lowerCondition_eq (e : Expr) :
    e.lowerCondition = PathCondition.single <$> e.lowerBool := by
  rw [lowerCondition, lowerBool, map_bind]
  simp only [bind_pure_comp]
  rfl

/-- To lower a conjunction is to lower its operands. -/
theorem interprets_lowerBool :
    Interprets lowerBool and (.const (.ofBool true)) (.logic .and) (.const true) where
  unit := rfl
  op l r := by
    rw [lowerBool, Expr.and, lower]
    simp only [lowerBool, bind_assoc, pure_bind, ofBool, expectBool, require]

end Expr

/-- To evaluate a conjunction of terms is to evaluate its operands. -/
theorem Term.interprets_evaluate (σ : Assignment) :
    Interprets (evaluate σ) (.logic .and) (.const true) and true where
  unit := rfl
  op _ _ := rfl

/-- Whether all of the path conditions hold. All of them are evaluated, one after the other, and the
first failure is the result. -/
def PathCondition.evaluateEach (σ : Assignment) (pcs : List PathCondition) :
    Except TermError Bool := do
  let bs ← pcs.mapM fun pc ↦ pc.evaluate σ
  return bs.all id

/-! ### Groups of expressions -/

/-- The term of a conjunction of groups. -/
def Term.grouped (tss : List (List (Term .bool))) : Term .bool :=
  nest (.logic .and) (.const true) (tss.map (nest (.logic .and) (.const true)))

/-- The terms of groups of expressions, which are lowered one after the other. -/
def Expr.lowerGroups (ess : List (List Expr)) : Lower (List (List (Term .bool))) :=
  ess.mapM fun es ↦ es.mapM lowerBool

/-- To lower a conjunction of groups is to lower the expressions of all groups. -/
theorem Expr.lowerCondition_groups (ess : List (List Expr)) :
    (conjunction (ess.map conjunction)).lowerCondition =
      (fun tss ↦ PathCondition.single (Term.grouped tss)) <$> lowerGroups ess := by
  rw [lowerCondition_eq, conjunction_eq_nest, interprets_lowerBool.apply_nest_nest, ← comp_map]
  rfl

/-- One by one they give their path conditions. -/
theorem Expr.mapM_lowerCondition_flatten (ess : List (List Expr)) :
    ess.flatten.mapM lowerCondition =
      (fun tss ↦ tss.flatten.map PathCondition.single) <$> lowerGroups ess := by
  rw [funext lowerCondition_eq, mapM_map_right, mapM_flatten, ← comp_map]
  rfl

/-- The term of a conjunction of groups has the truth value of its operands together. -/
theorem Term.evaluate_grouped (σ : Assignment) (tss : List (List (Term .bool))) :
    (PathCondition.single (grouped tss)).evaluate σ =
      PathCondition.evaluateEach σ (tss.flatten.map PathCondition.single) := by
  have hsingle : (fun t ↦ (PathCondition.single t).evaluate σ) = evaluate σ :=
    funext (PathCondition.evaluate_singleton σ)
  calc (PathCondition.single (grouped tss)).evaluate σ
      = (grouped tss).evaluate σ := PathCondition.evaluate_singleton σ _
    _ = (fun bs : List Bool ↦ bs.all id) <$> tss.flatten.mapM (evaluate σ) :=
      (interprets_evaluate σ).apply_groups tss
    _ = PathCondition.evaluateEach σ (tss.flatten.map PathCondition.single) := by
      rw [PathCondition.evaluateEach, List.mapM_map, ← hsingle, bind_pure_comp]
      rfl

/-! ### The formula of a stack -/

namespace AssertionStack

/-- The assertions of all frames, from the outermost frame to the innermost, in the order in which
they were added. -/
def live (s : AssertionStack) : List Expr :=
  s.frames.reverse.flatten

/-- Frames without assertions do not matter. -/
theorem live_filter (s : AssertionStack) :
    (⟨s.frames.filter fun frame ↦ !frame.isEmpty⟩ : AssertionStack).live = s.live := by
  rw [live, live, ← List.filter_reverse, List.flatten_filter_not_isEmpty]

theorem assertion?_eq_some {s : AssertionStack} (hs : s.frames ≠ []) :
    s.assertion? = some (Expr.conjunction (s.frames.reverse.map Expr.conjunction)) := by
  rw [assertion?, if_neg]
  rwa [List.isEmpty_iff]

/-- To lower the formula of a stack comes to the same as to lower its assertions one after the
other. The pass fails at the same assertion with the same error, or the bindings are the same, and
the path condition of the formula has the truth value of all the separate ones together. Nothing
depends on the grouping into frames, and least of all on frames without assertions. -/
theorem lowerCondition_assertion {s : AssertionStack} (hs : s.frames ≠ []) (t : LoweringState) :
    (∃ e, s.assertion? = some e ∧
      (∀ err t', e.lowerCondition.run t = (.error err, t') ↔
        (s.live.mapM Expr.lowerCondition).run t = (.error err, t')) ∧
      ∀ pcs t', (s.live.mapM Expr.lowerCondition).run t = (.ok pcs, t') →
        ∃ pc, e.lowerCondition.run t = (.ok pc, t') ∧
          ∀ σ, pc.evaluate σ = PathCondition.evaluateEach σ pcs) ∧
    (⟨s.frames.filter fun frame ↦ !frame.isEmpty⟩ : AssertionStack).live = s.live := by
  refine ⟨⟨_, assertion?_eq_some hs, ?_⟩, live_filter s⟩
  rw [live, Expr.lowerCondition_groups, Expr.mapM_lowerCondition_flatten, Lower.run_map,
    Lower.run_map]
  rcases (Expr.lowerGroups s.frames.reverse).run t with ⟨err | tss, t'⟩
  · refine ⟨fun _ _ ↦ ?_, fun _ _ h ↦ ?_⟩
    · simp
    · simp at h
  · refine ⟨fun _ _ ↦ by simp, fun pcs t'' h ↦ ?_⟩
    simp only [Prod.mk.injEq, Except.ok.injEq] at h
    obtain ⟨rfl, rfl⟩ := h
    exact ⟨_, rfl, fun σ ↦ Term.evaluate_grouped σ tss⟩

end AssertionStack

namespace EmptyFrames

/-! Three assertions in two frames, with empty frames around them. The integer `i` occurs in both
frames; where it is zero and `b` has no value, the second assertion is the first one to fail. -/

def b : Variable := ⟨"b", .bool⟩

def i : Variable := ⟨"i", .int⟩

def one : Expr := .const (.ofScalar ⟨.int, 1#32⟩)

def stack : AssertionStack :=
  ⟨[[], [.var b, .compare .lt one (.arith .div one (.var i))], [], [.compare .le (.var i) one]]⟩

theorem lowerCondition_assertion_stack :
    stack.frames ≠ [] ∧ ∃ e, stack.assertion? = some e ∧
      ∃ pc pass, e.lowerCondition.run ⟨[], 0⟩ = (.ok pc, pass) ∧
        pass.bindings = [⟨i, ⟨0, .int⟩⟩, ⟨b, ⟨1, .bool⟩⟩] ∧
        pc.evaluate ⟨[(0, ⟨.int, 0#32⟩)]⟩ = .error (.unbound 1) := by
  have hframes : stack.frames ≠ [] := by simp [stack]
  obtain ⟨⟨e, he, -, hok⟩, -⟩ := AssertionStack.lowerCondition_assertion hframes ⟨[], 0⟩
  obtain ⟨pc, hpc, heval⟩ := hok _ _ rfl
  exact ⟨hframes, e, he, pc, _, hpc, rfl, heval _⟩

end EmptyFrames

end ConstraintSearch

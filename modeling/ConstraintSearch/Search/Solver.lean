import ConstraintSearch.Formula.Evaluation
import ConstraintSearch.Search.Engine
import ConstraintSearch.Search.Recovery

/-!
# Solving formulas

A solver lowers a formula, has the engine search its path condition once, and reports a
verdict. Formulas that cannot be lowered are errors; whatever goes wrong in the engine or in
what it answers is the verdict *unknown*. If a valuation is asked for, a satisfiable formula
yields the values of its variables, all of them or none.
-/

namespace ConstraintSearch

/-- A search that the engine was asked for. -/
structure SearchQuery where
  condition : PathCondition
  settings : SearchSettings

/-- A solver: an engine, and a configuration. -/
structure Solver where
  engine : Engine
  configuration : Configuration

/-- What a solver keeps from one formula to the next: how many searches there have been, and
the number of the next literal. -/
structure SolverState where
  searches : Nat
  nextLiteral : Nat
  deriving DecidableEq

/-- What solving a formula comes to: the verdict or the reason why there is none, the search
that was made for it, and the valuation afterwards. -/
structure SolveResult where
  verdict : Except LoweringError Verdict
  query : Option SearchQuery
  valuation : Valuation

namespace Solver

/-- A solver with a configuration that has been validated. -/
def create (engine : Engine) (c : Configuration) : Except ConfigurationError Solver := do
  c.validate
  return ⟨engine, c⟩

/-- A solver with the default configuration. -/
def withDefaults (engine : Engine) : Solver :=
  ⟨engine, {}⟩

/-- The settings of all searches. -/
def settings (s : Solver) : SearchSettings :=
  s.configuration.settings

/-- The state before the first formula. -/
def initialState : SolverState := ⟨0, 0⟩

/-- Starts to number literals from zero again. -/
def resetIds (st : SolverState) : SolverState :=
  { st with nextLiteral := 0 }

/-- The verdict on a solution, and the valuation with it: a satisfying assignment whose
scalars cannot be recovered is worth nothing. -/
def adopt (bindings : List Binding) (v : Valuation) (solution : Solution) :
    Verdict × Valuation :=
  match solution.verdict with
  | .sat =>
    match recover bindings solution.assignment v with
    | .ok v => (.sat, v)
    | .error _ => (.unknown, v)
  | verdict => (verdict, v)

/-- Solves a formula; with `wanted` the valuation is given the values that satisfy it. -/
def run (s : Solver) (wanted : Bool) (formula : Expr) (v : Valuation) (st : SolverState) :
    SolveResult × SolverState :=
  match formula.lowerCondition.run ⟨[], (resetIds st).nextLiteral⟩ with
  | (.error e, pass) => (⟨.error e, none, v⟩, { st with nextLiteral := pass.next })
  | (.ok pc, pass) =>
    let st' : SolverState := ⟨st.searches + 1, pass.next⟩
    let (verdict, v') :=
      match (s.engine st.searches pc s.settings).solution? with
      | none => (.unknown, v)
      | some solution =>
        if wanted then adopt pass.bindings v solution else (solution.verdict, v)
    (⟨.ok verdict, some ⟨pc, s.settings⟩, v'⟩, st')

/-- Solves a formula for the verdict only. -/
def solve (s : Solver) (formula : Expr) (v : Valuation) (st : SolverState) :
    SolveResult × SolverState :=
  s.run false formula v st

/-- Solves a formula and puts the values that satisfy it into the valuation. -/
def solveWith (s : Solver) (formula : Expr) (v : Valuation) (st : SolverState) :
    SolveResult × SolverState :=
  s.run true formula v st

end Solver

end ConstraintSearch

import ConstraintSearch.Search.AssertionStack
import ConstraintSearch.Search.Solver

/-!
# Contexts

A context is an assertion stack on a solver: its assertions are solved together, as one formula.
Several contexts may be created on one solver. What the solver keeps from one formula to the next
belongs to all of them, so it is handed on from call to call.
-/

namespace ConstraintSearch

/-- An assertion stack, and what its solver keeps from one formula to the next. -/
structure Context where
  stack : AssertionStack
  solver : SolverState

/-- The calls on a context. -/
inductive ContextCall
  /-- Changes the stack. -/
  | change (c : StackCall)
  /-- Asks for the conjunction of the assertions. -/
  | assertion
  /-- Solves the assertions; `wanted` asks for values, which go into a valuation. -/
  | solve (wanted : Bool) (v : Valuation)

/-- What a call answers. -/
inductive CallAnswer
  | done
  | refused (e : StackError)
  | formula (e : Option Expr)
  | solved (result : SolveResult)

namespace Context

/-- Makes a call: its answer, and the context after it. A refused call changes nothing. A
context without frames is unsatisfiable, and no search is made for it. -/
def step (s : Solver) (x : Context) : ContextCall → CallAnswer × Context
  | .change c =>
    match x.stack.call c with
    | .ok stack => (.done, { x with stack := stack })
    | .error e => (.refused e, x)
  | .assertion => (.formula x.stack.assertion?, x)
  | .solve wanted v =>
    match x.stack.assertion? with
    | some e =>
      let (result, state) := s.run wanted e v x.solver
      (.solved result, { x with solver := state })
    | none => (.solved ⟨.ok .unsat, none, v⟩, x)

end Context

/-! ### Contexts that share a solver -/

/-- A solver with the contexts that were created on it, which have names. -/
structure SharedSolver (ι : Type) where
  state : SolverState
  contexts : ι → AssertionStack

/-- The calls on a solver and on its contexts. -/
inductive SharedCall (ι : Type)
  /-- Creates a context; one that has the name already is forgotten. -/
  | create (i : ι)
  /-- A call on a context. -/
  | context (i : ι) (c : ContextCall)
  /-- Solves a formula without a context; `wanted` asks for values, which go into a valuation. -/
  | solve (wanted : Bool) (e : Expr) (v : Valuation)
  /-- Starts to number literals from zero again. -/
  | resetIds

namespace SharedSolver

variable {ι : Type} [DecidableEq ι]

/-- Puts an assertion stack in the place of that of a context. -/
def setContext (x : SharedSolver ι) (i : ι) (a : AssertionStack) : SharedSolver ι :=
  { x with contexts := fun j ↦ if j = i then a else x.contexts j }

/-- Makes a call: its answer, and the solver with its contexts after it. -/
def step (s : Solver) (x : SharedSolver ι) : SharedCall ι → CallAnswer × SharedSolver ι
  | .create i => (.done, x.setContext i .empty)
  | .context i c =>
    let (answer, y) := Context.step s ⟨x.contexts i, x.state⟩ c
    (answer, { x.setContext i y.stack with state := y.solver })
  | .solve wanted e v =>
    let (result, state) := s.run wanted e v x.state
    (.solved result, { x with state := state })
  | .resetIds => (.done, { x with state := Solver.resetIds x.state })

end SharedSolver

end ConstraintSearch

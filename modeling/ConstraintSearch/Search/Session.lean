import ConstraintSearch.Search.Context

/-!
# Sessions

A session works with one solver, one valuation, and any number of named assertion stacks, its
*contexts*, one of which is current. Each step answers something, and may have the engine
search once.
-/

namespace ConstraintSearch

/-- The state of a session. Contexts are numbered in the order in which they were created. -/
structure Session where
  shared : SharedSolver Nat
  names : List String
  current : Nat
  valuation : Valuation

/-- The steps of a session. -/
inductive SessionStep
  /-- Opens a frame of the current context. -/
  | push
  /-- Closes frames of the current context. -/
  | pop (n : Nat)
  /-- Adds assertions to the current context. -/
  | add (es : List Expr)
  /-- Asks for the conjunction of the assertions of the current context. -/
  | assertion
  /-- Solves the assertions of the current context; `wanted` asks for values. -/
  | solve (wanted : Bool)
  /-- Solves a formula; `wanted` asks for values. -/
  | solveFormula (wanted : Bool) (e : Expr)
  /-- Evaluates a formula under the valuation. -/
  | holds (e : Expr)
  /-- Gives a variable a value. -/
  | insert (x : Variable) (v : Value)
  /-- Forgets all values. -/
  | clear
  /-- Makes the first context of a name the current one, or a new one if there is none. -/
  | select (name : String)
  /-- Puts a new context without a name in the place of the current one. -/
  | dispose
  /-- Starts to number literals from zero again. -/
  | resetIds

/-- What a step answers. -/
inductive SessionAnswer
  | done
  | refused (e : StackError)
  | formula (e : Option Expr)
  | solved (verdict : Except LoweringError Verdict)
  | truth (b : Except EvaluationError Bool)

namespace Session

/-- The session before its first step: an empty valuation, and a context without a name. -/
def initial : Session where
  shared := ⟨Solver.initialState, fun _ ↦ AssertionStack.empty⟩
  names := [""]
  current := 0
  valuation := Table.empty

/-- What the solver keeps from one formula to the next. -/
def solver (s : Session) : SolverState :=
  s.shared.state

/-- The current context. -/
def context (s : Session) : AssertionStack :=
  s.shared.contexts s.current

/-- Makes a call. If it solves a formula, the session has the valuation that comes of it. -/
def call (solver : Solver) (s : Session) (c : SharedCall Nat) :
    SessionAnswer × Option SearchQuery × Session :=
  let (answer, shared) := s.shared.step solver c
  let s : Session := { s with shared := shared }
  match answer with
  | .done => (.done, none, s)
  | .refused e => (.refused e, none, s)
  | .formula e => (.formula e, none, s)
  | .solved result =>
    (.solved result.verdict, result.query, { s with valuation := result.valuation })

/-- Makes a call on the current context. -/
def callContext (solver : Solver) (s : Session) (c : ContextCall) :
    SessionAnswer × Option SearchQuery × Session :=
  s.call solver (.context s.current c)

/-- Makes a step: its answer, the search that it made, and the session after it. -/
def step (solver : Solver) (s : Session) :
    SessionStep → SessionAnswer × Option SearchQuery × Session
  | .push => s.callContext solver (.change .push)
  | .pop n => s.callContext solver (.change (.pop n))
  | .add es => s.callContext solver (.change (.add es))
  | .assertion => s.callContext solver .assertion
  | .solve wanted => s.callContext solver (.solve wanted s.valuation)
  | .solveFormula wanted e => s.call solver (.solve wanted e s.valuation)
  | .holds e => (.truth (e.holds s.valuation), none, s)
  | .insert x v => (.done, none, { s with valuation := s.valuation.insert x v })
  | .clear => (.done, none, { s with valuation := Table.empty })
  | .select name =>
    match s.names.findIdx? (· = name) with
    | some i => (.done, none, { s with current := i })
    | none =>
      let i := s.names.length
      { s with names := s.names ++ [name], current := i }.call solver (.create i)
  | .dispose => { s with names := s.names.set s.current "" }.call solver (.create s.current)
  | .resetIds => s.call solver .resetIds

end Session

end ConstraintSearch

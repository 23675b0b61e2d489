import ConstraintSearch.Text.Case
import ConstraintSearch.Word

/-!
# Configuration of a search

The search strategies, the interval solvers that may assist them, and the settings that a
search is given. A configuration is what a user chooses; the settings are what follows from
it: an iteration budget only for the strategies that take one, and simplification only
together with an interval solver.
-/

namespace ConstraintSearch

-- Powers are those of the core library, also where other instances are in scope.
attribute [local instance (high)] instPowNat

/-- The search strategies: particle swarms, random search, alternating variables, genetic
algorithms, differential evolution and simulated annealing. -/
inductive SearchStrategy
  | particleSwarm
  | random
  | alternatingVariable
  | genetic
  | differentialEvolution
  | simulatedAnnealing
  deriving DecidableEq

namespace SearchStrategy

/-- How the strategy is written. -/
def name : SearchStrategy → String
  | .particleSwarm => "PSO_OPT4J"
  | .random => "RANDOM"
  | .alternatingVariable => "AVM"
  | .genetic => "GA_OPT4J"
  | .differentialEvolution => "DE_OPT4J"
  | .simulatedAnnealing => "SA_OPT4J"

/-- Whether the strategy takes an iteration budget. -/
def takesBudget : SearchStrategy → Bool
  | .particleSwarm | .random | .alternatingVariable => true
  | .genetic | .differentialEvolution | .simulatedAnnealing => false

/-- The strategy of a name in any case. -/
def read? (s : String) : Option SearchStrategy :=
  match Text.keyword s with
  | "PSO_OPT4J" => some .particleSwarm
  | "RANDOM" => some .random
  | "AVM" => some .alternatingVariable
  | "GA_OPT4J" => some .genetic
  | "DE_OPT4J" => some .differentialEvolution
  | "SA_OPT4J" => some .simulatedAnnealing
  | _ => none

/-- The wording of the complaint about a name that is no strategy. -/
def unknownMessage (s : String) : String :=
  "Unknown search strategy: " ++ s ++
    ". Valid options: pso_opt4j, random, avm, ga_opt4j, de_opt4j, sa_opt4j"

end SearchStrategy

/-- The interval solvers that may prune the search space, with the path at which each is
installed. -/
inductive IntervalSolver
  | none
  | realPaver (path : String)
  | icos (path : String)
  deriving DecidableEq

/-- Why a configuration is refused. -/
inductive ConfigurationError
  | zeroIterations
  | missingIntervalSolverPath (solver : String)
  | invalidProperty (key value reason : String)
  deriving DecidableEq

/-- The wording of the error. -/
def ConfigurationError.message : ConfigurationError → String
  | .zeroIterations => "iteration budget must be positive"
  | .missingIntervalSolverPath solver => "interval solver " ++ solver ++ " needs a path"
  | .invalidProperty key value reason =>
    "invalid value '" ++ value ++ "' for property " ++ key ++ ": " ++ reason

/-- The key of the property that names the interval solver. -/
def intervalSolverKey : String := "coral.interval_solver"

namespace IntervalSolver

/-- How the interval solver is written. -/
def name : IntervalSolver → String
  | .none => "NONE"
  | .realPaver _ => "REALPAVER"
  | .icos _ => "ICOS"

/-- The path of the interval solver. -/
def path? : IntervalSolver → Option String
  | .none => Option.none
  | .realPaver path => some path
  | .icos path => some path

/-- Whether there is an interval solver. -/
def isEnabled : IntervalSolver → Bool
  | .none => false
  | .realPaver _ | .icos _ => true

/-- The interval solver of a name in any case, at a path, which all but the absent one
need. -/
def ofName (name : String) (path : Option String) :
    Except ConfigurationError IntervalSolver :=
  let atPath (upper : String) (solver : String → IntervalSolver) :=
    match path with
    | some p => .ok (solver p)
    | Option.none => .error (.missingIntervalSolverPath upper)
  match Text.keyword name with
  | "NONE" => .ok .none
  | "REALPAVER" => atPath "REALPAVER" .realPaver
  | "ICOS" => atPath "ICOS" .icos
  | _ => .error (.invalidProperty intervalSolverKey name "expected none, realpaver or icos")

end IntervalSolver

/-- The settings of a search. -/
structure SearchSettings where
  seed : Word .w64
  strategy : SearchStrategy
  /-- The iteration budget, if the strategy takes one and one was set. -/
  iterations : Option Nat
  intervalSolver : IntervalSolver
  /-- Whether the interval solver simplifies the constraints first. -/
  simplify : Bool
  deriving DecidableEq

/-- What a user chooses about searches. -/
structure Configuration where
  /-- The seed of the random number generator. -/
  seed : Word .w64 := 464655
  /-- The iteration budget; without one the engine uses its own. -/
  iterations : Option Nat := none
  strategy : SearchStrategy := .particleSwarm
  /-- Whether an interval solver is to simplify the constraints first. -/
  optimize : Bool := true
  intervalSolver : IntervalSolver := .none
  deriving DecidableEq

namespace Configuration

/-- The greatest iteration budget. -/
def greatestBudget : Nat := 2 ^ (32 : Nat) - 1

/-- Checks that the iteration budget is positive and that the interval solver has a path that
is not empty. -/
def validate (c : Configuration) : Except ConfigurationError Unit :=
  if c.iterations = some 0 then .error .zeroIterations
  else if c.intervalSolver.path? = some "" then
    .error (.missingIntervalSolverPath c.intervalSolver.name)
  else .ok ()

/-- The settings that follow from the configuration. -/
def settings (c : Configuration) : SearchSettings where
  seed := c.seed
  strategy := c.strategy
  iterations := if c.strategy.takesBudget then c.iterations else none
  intervalSolver := c.intervalSolver
  simplify := c.intervalSolver.isEnabled && c.optimize

end Configuration

end ConstraintSearch

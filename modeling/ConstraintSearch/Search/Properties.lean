import ConstraintSearch.Search.Configuration
import ConstraintSearch.Text.Blank

/-!
# Configurations from properties

Reading a configuration from a list of keys and values. Each property is read from its own
key, in a fixed order, and the first one that cannot be read decides the error; what comes out
has been validated.
-/

namespace ConstraintSearch

/-- Keys and their values; of several values of a key the last one counts. -/
abbrev Properties : Type :=
  List (String × String)

namespace Properties

/-- The value of a key. -/
def get? (props : Properties) (key : String) : Option String :=
  (props.reverse.find? fun p ↦ p.1 = key).map Prod.snd

/-- Blanks around a value do not count. -/
def trimmed (value : String) : List Char :=
  Text.trim value.toList

/-- The integer of 64 bits that a value stands for. -/
def readInt (key value : String) : Except ConfigurationError Int :=
  match Text.readInt (Word.least .w64) (Word.greatest .w64) (trimmed value) with
  | .ok i => .ok i
  | .error e => .error (.invalidProperty key value e.message)

/-- The strategy that a value stands for. -/
def readStrategy (key value : String) : Except ConfigurationError SearchStrategy :=
  let name := String.ofList (trimmed value)
  match SearchStrategy.read? name with
  | some s => .ok s
  | none => .error (.invalidProperty key value (SearchStrategy.unknownMessage name))

/-- The truth value that a value stands for in any case; a value that is refused is shown in
lowercase. -/
def readBool (key value : String) : Except ConfigurationError Bool :=
  let lowered := Text.lowercase value
  match String.ofList (trimmed lowered) with
  | "true" => .ok true
  | "false" => .ok false
  | _ =>
    .error (.invalidProperty key lowered "provided string was not \x60true\x60 or \x60false\x60")

/-- The iteration budget that an integer stands for: one that is not positive, or not in
range, leaves the budget to the engine. -/
def budget? (i : Int) : Option Nat :=
  if 0 < i ∧ i ≤ Configuration.greatestBudget then some i.toNat else none

/-- Changes a configuration by the value of a key, if the key has one. -/
def applyKey (props : Properties) (key : String) (c : Configuration)
    (change : String → Except ConfigurationError Configuration) :
    Except ConfigurationError Configuration :=
  match props.get? key with
  | some value => change value
  | none => .ok c

/-- The configuration that properties describe; what they do not mention has its default. -/
def configuration (props : Properties) : Except ConfigurationError Configuration := do
  let c : Configuration := {}
  let c ← props.applyKey "coral.seed" c fun v ↦ do
    return { c with seed := Word.wrap .w64 (← readInt "coral.seed" v) }
  let c ← props.applyKey "coral.iterations" c fun v ↦ do
    return { c with iterations := budget? (← readInt "coral.iterations" v) }
  let c ← props.applyKey "coral.solver" c fun v ↦ do
    return { c with strategy := ← readStrategy "coral.solver" v }
  let c ← props.applyKey "coral.optimize" c fun v ↦ do
    return { c with optimize := ← readBool "coral.optimize" v }
  let c ← props.applyKey intervalSolverKey c fun v ↦ do
    let path := props.get? "coral.interval_solver.path"
    return { c with intervalSolver := ← IntervalSolver.ofName (String.ofList (trimmed v)) path }
  c.validate
  return c

end Properties

end ConstraintSearch

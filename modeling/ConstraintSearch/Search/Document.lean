import ConstraintSearch.Json.Value
import ConstraintSearch.Search.Configuration

/-!
# Configurations from documents

Reading a configuration from a JSON document: an object whose members name the fields, or an
array of the fields in their order, of which the last ones may be missing. A document is read
from its beginning, and a field is read as soon as its value is complete, so that of several
faults the first one counts; only the name of an unknown strategy is reported as such.
-/

namespace ConstraintSearch

/-- Why a document is no configuration. -/
inductive DocumentError
  | malformed
  | unknownStrategy (name : String)
  deriving DecidableEq

/-- The wording of the error, where it says more than that there is one. -/
def DocumentError.message? : DocumentError → Option String
  | .malformed => none
  | .unknownStrategy name => some (SearchStrategy.unknownMessage name)

namespace Document

/-- The fields of a configuration. -/
inductive Field
  | seed
  | iterations
  | strategy
  | optimize
  | intervalSolver
  deriving DecidableEq

/-- The fields in the order in which an array lists them. -/
def fields : List Field :=
  [.seed, .iterations, .strategy, .optimize, .intervalSolver]

/-- The field of a name. -/
def Field.ofName? : String → Option Field
  | "seed" => some .seed
  | "iterations" => some .iterations
  | "solver_kind" => some .strategy
  | "optimize" => some .optimize
  | "interval_solver" => some .intervalSolver
  | _ => none

/-- Arrays and objects may be nested less than so deep. -/
def nestingLimit : Nat := 128

/-- The integer that a number is; a negative zero is none. -/
def integer? (n : Json.Numeral) : Option Int :=
  if n.isInteger && !(n.negative && n.units == 0) then
    some (if n.negative then -n.units else n.units)
  else none

/-- The value of the only member of a name. -/
def soleMember? (name : String) (members : List (String × Json.Value)) : Option Json.Value :=
  match members.filter fun m ↦ m.1 = name with
  | [m] => some m.2
  | _ => none

/-- The interval solver of a name and what it needs. -/
def intervalSolver? (kind : String) (path : Option Json.Value) : Option IntervalSolver :=
  match kind, path with
  | "none", _ => some .none
  | "realpaver", some (.string path) => some (.realPaver path)
  | "icos", some (.string path) => some (.icos path)
  | _, _ => none

/-- Reads an interval solver: an object with a member for its kind, or an array of its kind
and, if it needs one, its path. -/
def readIntervalSolver : Json.Value → Option IntervalSolver
  | .object members =>
    match soleMember? "kind" members with
    | some (.string kind) => intervalSolver? kind (soleMember? "path" members)
    | _ => none
  | .array [.string "none"] => some .none
  | .array [.string kind, path] =>
    if kind = "none" then none else intervalSolver? kind (some path)
  | _ => none

/-- Gives a field of a configuration its value. -/
def setField (c : Configuration) : Field → Json.Value → Except DocumentError Configuration
  | .seed, .number n =>
    match integer? n with
    | some i =>
      if Word.least .w64 ≤ i ∧ i ≤ Word.greatest .w64 then .ok { c with seed := Word.wrap .w64 i }
      else .error .malformed
    | none => .error .malformed
  | .iterations, .null => .ok { c with iterations := none }
  | .iterations, .number n =>
    match integer? n with
    | some i =>
      if 0 ≤ i ∧ i ≤ Configuration.greatestBudget then .ok { c with iterations := some i.toNat }
      else .error .malformed
    | none => .error .malformed
  | .strategy, .string name =>
    match SearchStrategy.read? name with
    | some s => .ok { c with strategy := s }
    | none => .error (.unknownStrategy name)
  | .optimize, .bool b => .ok { c with optimize := b }
  | .intervalSolver, v =>
    match readIntervalSolver v with
    | some s => .ok { c with intervalSolver := s }
    | none => .error .malformed
  | _, _ => .error .malformed

/-- Reads the value of a field, and returns the tokens behind it. -/
def readField (c : Configuration) (f : Field) (ts : List Json.Token) :
    Except DocumentError (Configuration × List Json.Token) :=
  match Json.value? (nestingLimit - 2) ts with
  | some (v, rest) => do return (← setField c f v, rest)
  | none => .error .malformed

/-- Reads the members of an object behind its opening brace; `unset` are the fields that have
not been read, and bound the number of members. -/
def readMembers : (fuel : Nat) → (unset : List Field) → Configuration → List Json.Token →
    Except DocumentError (Configuration × List Json.Token)
  | fuel + 1, unset, c, .string name :: .colon :: ts => do
    match Field.ofName? name with
    | none => throw .malformed
    | some f =>
      if f ∈ unset then
        let (c, rest) ← readField c f ts
        match rest with
        | .closeObject :: rest => return (c, rest)
        | .comma :: rest => readMembers fuel (unset.erase f) c rest
        | _ => throw .malformed
      else throw .malformed
  | _, _, _, _ => .error .malformed

/-- Reads the elements of an array behind its opening bracket, one for each of the fields, of
which the last ones may be missing. -/
def readElements : List Field → Configuration → List Json.Token →
    Except DocumentError (Configuration × List Json.Token)
  | f :: fs, c, ts => do
    let (c, rest) ← readField c f ts
    match rest with
    | .closeArray :: rest => return (c, rest)
    | .comma :: rest => readElements fs c rest
    | _ => throw .malformed
  | [], _, _ => .error .malformed

/-- Reads the value that a document consists of. -/
def readConfiguration : List Json.Token →
    Except DocumentError (Configuration × List Json.Token)
  | .openObject :: .closeObject :: rest => .ok ({}, rest)
  | .openObject :: rest => readMembers fields.length fields {} rest
  | .openArray :: .closeArray :: rest => .ok ({}, rest)
  | .openArray :: rest => readElements fields {} rest
  | _ => .error .malformed

/-- The configuration that a document describes; what it does not mention has its default. -/
def configuration (document : String) : Except DocumentError Configuration := do
  match ← readConfiguration (Json.tokens document) with
  | (c, []) => return c
  | _ => throw .malformed

end Document

end ConstraintSearch

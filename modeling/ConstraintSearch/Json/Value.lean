import ConstraintSearch.Json.Token

/-!
# JSON values

Values as trees, and their grammar over tokens. Members of objects keep their order and may
repeat a name; what that means is for the reader of the object to say. Arrays and objects are
nested up to a limit that the caller sets.
-/

namespace ConstraintSearch.Json

/-- A value. -/
inductive Value
  | null
  | bool (b : Bool)
  | number (n : Numeral)
  | string (s : String)
  | array (elements : List Value)
  | object (members : List (String × Value))

mutual

/-- Reads a value in which arrays and objects are nested at most `depth` deep, and returns the
tokens behind it. The first argument bounds the number of steps. -/
def parseValue : (fuel depth : Nat) → List Token → Option (Value × List Token)
  | 0, _, _ => none
  | fuel + 1, depth, ts =>
    match depth, ts with
    | _, .null :: rest => some (.null, rest)
    | _, .bool b :: rest => some (.bool b, rest)
    | _, .number n :: rest => some (.number n, rest)
    | _, .string s :: rest => some (.string s, rest)
    | _ + 1, .openArray :: .closeArray :: rest => some (.array [], rest)
    | depth + 1, .openArray :: rest => do
      let (vs, rest) ← parseElements fuel depth rest
      return (.array vs, rest)
    | _ + 1, .openObject :: .closeObject :: rest => some (.object [], rest)
    | depth + 1, .openObject :: rest => do
      let (ms, rest) ← parseMembers fuel depth rest
      return (.object ms, rest)
    | _, _ => none

/-- Reads at least one element of an array, and its end. -/
def parseElements : (fuel depth : Nat) → List Token → Option (List Value × List Token)
  | 0, _, _ => none
  | fuel + 1, depth, ts => do
    let (v, rest) ← parseValue fuel depth ts
    match rest with
    | .closeArray :: rest => return ([v], rest)
    | .comma :: rest =>
      let (vs, rest) ← parseElements fuel depth rest
      return (v :: vs, rest)
    | _ => none

/-- Reads at least one member of an object, and its end. -/
def parseMembers : (fuel depth : Nat) → List Token → Option (List (String × Value) × List Token)
  | 0, _, _ => none
  | fuel + 1, depth, ts =>
    match ts with
    | .string name :: .colon :: rest => do
      let (v, rest) ← parseValue fuel depth rest
      match rest with
      | .closeObject :: rest => return ([(name, v)], rest)
      | .comma :: rest =>
        let (ms, rest) ← parseMembers fuel depth rest
        return ((name, v) :: ms, rest)
      | _ => none
    | _ => none

end

/-- Reads a value in which arrays and objects are nested at most `depth` deep, and returns the
tokens behind it. -/
def value? (depth : Nat) (ts : List Token) : Option (Value × List Token) :=
  parseValue (2 * ts.length + 1) depth ts

end ConstraintSearch.Json

import ConstraintSearch.Term.Evaluation
import ConstraintSearch.Term.Printing

/-!
# Path conditions

A path condition is a list of constraints that are to hold together. Evaluation stops at the
first constraint that is false, or fails; inside a constraint it is strict.
-/

namespace ConstraintSearch

/-- Constraints that are to hold together. -/
structure PathCondition where
  constraints : List (Term .bool)

namespace PathCondition

/-- The pairs of a list whose first component has not occurred before. -/
def firstOccurrences (seen : List Nat) : List (Nat × Kind) → List (Nat × Kind)
  | [] => []
  | (id, k) :: rest =>
    if id ∈ seen then firstOccurrences seen rest
    else (id, k) :: firstOccurrences (id :: seen) rest

/-- The literals of the path condition in the order of their first occurrence, each with the
kind of that occurrence. -/
def literals (pc : PathCondition) : List (Nat × Kind) :=
  firstOccurrences [] (pc.constraints.flatMap Term.occurrences)

/-- Whether all constraints of a list hold under an assignment. -/
def evaluateAll (σ : Assignment) : List (Term .bool) → Except TermError Bool
  | [] => .ok true
  | c :: cs => do
    if ← c.evaluate σ then evaluateAll σ cs else return false

/-- Whether the path condition holds under an assignment. -/
def evaluate (pc : PathCondition) (σ : Assignment) : Except TermError Bool :=
  evaluateAll σ pc.constraints

/-- The text of a path condition: its constraints, separated by semicolons. -/
def text (pc : PathCondition) : String :=
  " ; ".intercalate (pc.constraints.map Term.text)

end PathCondition

end ConstraintSearch

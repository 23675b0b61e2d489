import ConstraintSearch.Search.Configuration
import ConstraintSearch.Term.PathCondition

/-!
# Search engines

A search engine is a black box: it is given a path condition and settings, and answers with a
verdict and an assignment, or fails. Engines may answer differently from one search to the
next, so the number of earlier searches is among what they are given.
-/

namespace ConstraintSearch

/-- The verdicts on a path condition. -/
inductive Verdict
  | sat
  | unsat
  | unknown
  deriving DecidableEq

namespace Verdict

/-- How the verdict is written. -/
def text : Verdict → String
  | .sat => "SAT"
  | .unsat => "UNSAT"
  | .unknown => "DONT_KNOW"

end Verdict

/-- A verdict of an engine, with the scalars that it assigns to literals. -/
structure Solution where
  verdict : Verdict
  assignment : Assignment

/-- What becomes of a search: a solution, an error that the engine reports, a formula that it
refuses, or a crash. -/
inductive SearchOutcome
  | solved (s : Solution)
  | failed (reason : String)
  | unsupported (reason : String)
  | crashed (reason : String)

/-- The solution of a search that came to one. -/
def SearchOutcome.solution? : SearchOutcome → Option Solution
  | .solved s => some s
  | _ => none

/-- A search engine: the outcome of a search, given the number of earlier ones. -/
abbrev Engine : Type :=
  (earlier : Nat) → PathCondition → SearchSettings → SearchOutcome

namespace Engine

/-- The engine that reports a failure at every search. -/
def failing (reason : String) : Engine :=
  fun _ _ _ ↦ .failed reason

/-- The engine that crashes at every search. -/
def crashing (reason : String) : Engine :=
  fun _ _ _ ↦ .crashed reason

/-- The engine that gives prepared outcomes one after the other, and the last one for ever. -/
def scripted (outcomes : List SearchOutcome) : Engine :=
  fun earlier _ _ ↦ (outcomes[earlier]?.or outcomes.getLast?).getD (.crashed "no outcome is left")

end Engine

end ConstraintSearch

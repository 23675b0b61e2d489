import ConstraintSearch.Lowering.Basic

/-!
# Lowering passes with a common supply of literals

Several lowering passes may take their literals from one supply. Each has bindings of its
own, so that one variable has different literals in different passes, and a pass never uses
the number of a literal that another one has taken since the supply was last reset.
-/

namespace ConstraintSearch

/-- Lowering passes, oldest first, the current one of them, and the number of the next
literal. -/
structure LoweringPasses where
  passes : List (List Binding)
  current : Nat
  next : Nat

namespace LoweringPasses

/-- A single pass without bindings. -/
def initial : LoweringPasses := ⟨[[]], 0, 0⟩

/-- The bindings of the current pass. -/
def bindings (s : LoweringPasses) : List Binding :=
  s.passes[s.current]?.getD []

/-- Adds a pass without bindings and makes it the current one. -/
def addPass (s : LoweringPasses) : LoweringPasses :=
  { s with passes := s.passes ++ [[]], current := s.passes.length }

/-- Makes a pass the current one. -/
def select (s : LoweringPasses) (i : Nat) : LoweringPasses :=
  { s with current := i }

/-- Takes the number of the next literal. -/
def takeId (s : LoweringPasses) : Nat × LoweringPasses :=
  (s.next, { s with next := s.next + 1 })

/-- Starts to number literals from zero again. -/
def resetIds (s : LoweringPasses) : LoweringPasses :=
  { s with next := 0 }

/-- Runs a step in the current pass. -/
def run {α : Type} (m : Lower α) (s : LoweringPasses) :
    Except LoweringError α × LoweringPasses :=
  let (result, t) := m.run ⟨s.bindings, s.next⟩
  (result, { s with passes := s.passes.set s.current t.bindings, next := t.next })

end LoweringPasses

end ConstraintSearch

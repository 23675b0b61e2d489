import ConstraintSearch.Search.Solver
import Mathlib.Tactic.SplitIfs

/-!
# Names and valid configurations

Strategies and interval solvers are read from their names in any case. A configuration that has been
validated is one that a solver takes, and it never asks for simplification without an interval
solver that has a path.
-/

namespace ConstraintSearch

namespace SearchStrategy

/-- All search strategies. -/
def all : List SearchStrategy :=
  [.particleSwarm, .random, .alternatingVariable, .genetic, .differentialEvolution,
    .simulatedAnnealing]

theorem mem_all (k : SearchStrategy) : k ∈ all := by
  cases k <;> decide

/-- A strategy is read from its name and from no other keyword. -/
theorem read?_eq_some_iff {s : String} {k : SearchStrategy} :
    read? s = some k ↔ Text.keyword s = k.name := by
  unfold read?
  split
  case h_7 => cases k <;> simp_all [name]
  all_goals
    next h =>
      rw [h]
      cases k <;> decide

theorem eq_of_keyword_eq {s : String} {k l : SearchStrategy} (hk : Text.keyword s = k.name)
    (hl : Text.keyword s = l.name) : k = l :=
  Option.some.inj ((read?_eq_some_iff.2 hk).symm.trans (read?_eq_some_iff.2 hl))

end SearchStrategy

namespace IntervalSolver

/-- An interval solver is read from its name, and its path is the one that is given. -/
theorem ofName_eq_ok_iff {name : String} {path : Option String} {t : IntervalSolver} :
    ofName name path = .ok t ↔ Text.keyword name = t.name ∧ (t ≠ .none → t.path? = path) := by
  unfold ofName
  dsimp only
  split
  case h_4 => cases t <;> simp_all [IntervalSolver.name]
  all_goals
    next h =>
      rw [h]
      cases path <;> cases t <;> simp [IntervalSolver.name, path?, eq_comm]

theorem eq_none_iff_of_name_eq {t u : IntervalSolver} (h : t.name = u.name) :
    t = .none ↔ u = .none := by
  cases t <;> cases u <;> simp_all [name]

/-- An interval solver is determined by its name and its path. -/
theorem eq_of_name_eq {t u : IntervalSolver} (hname : t.name = u.name)
    (hpath : t ≠ .none → t.path? = u.path?) : t = u := by
  cases t <;> cases u <;> simp_all [name, path?]

theorem exists_path_of_isEnabled {t : IntervalSolver} (h : t.isEnabled = true) :
    ∃ path, t.path? = some path := by
  cases t with
  | none => cases h
  | realPaver path => exact ⟨path, rfl⟩
  | icos path => exact ⟨path, rfl⟩

end IntervalSolver

theorem Configuration.validate_eq_ok_iff {c : Configuration} :
    c.validate = .ok () ↔ c.iterations ≠ some 0 ∧ c.intervalSolver.path? ≠ some "" := by
  unfold validate
  split_ifs with hzero hpath
  · simp [hzero]
  · simp [hpath]
  · simp [hzero, hpath]

/-- A valid configuration lets an interval solver simplify only if it has a path. -/
theorem Configuration.exists_path_of_simplify {c : Configuration} (hvalid : c.validate = .ok ())
    (h : c.settings.simplify = true) :
    ∃ path, c.settings.intervalSolver.path? = some path ∧ path ≠ "" := by
  obtain ⟨-, hpath⟩ := validate_eq_ok_iff.1 hvalid
  obtain ⟨henabled, -⟩ := Bool.and_eq_true_iff.1 h
  obtain ⟨path, hsolver⟩ := IntervalSolver.exists_path_of_isEnabled henabled
  exact ⟨path, hsolver, fun hempty ↦ hpath (hempty ▸ hsolver)⟩

/-- A solver takes a valid configuration. -/
theorem Solver.create_of_valid {c : Configuration} (engine : Engine)
    (hvalid : c.validate = .ok ()) : create engine c = .ok ⟨engine, c⟩ := by
  rw [create, hvalid]
  rfl

end ConstraintSearch

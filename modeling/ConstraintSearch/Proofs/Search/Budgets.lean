import ConstraintSearch.Proofs.Search.Properties

/-!
# Iteration budgets

The number of iterations among the properties is a 64-bit integer, and the budget of a search is a
positive number of 32 bits. In between numbers that are no budget are dropped: those that are not
positive, which ask for the budget of the engine, and also those that are too large.
-/

namespace ConstraintSearch.Properties

variable {props : Properties} {c : Configuration} {v : String} {n : Int} {k : SearchStrategy}

theorem budget?_of_pos (h : 0 < n) :
    budget? n = if n ≤ Configuration.greatestBudget then some n.toNat else none := by
  simp only [budget?, h, true_and]

/-- The budget is that of the number which the properties give. -/
theorem Describes.iterations_eq (h : props.Describes c)
    (hv : props.get? "coral.iterations" = some v) (hn : integer v = .ok n) :
    c.iterations = budget? n := by
  have hgives := h.iterations
  rw [Gives, hv] at hgives
  obtain ⟨i, hi, hc⟩ := hgives
  rw [hc, Except.ok.inj (hi.symm.trans hn)]

theorem Describes.strategy_eq (h : props.Describes c) (hk : props.GivesStrategy k) :
    c.strategy = k :=
  h.strategy.unique hk rfl fun _ ↦ SearchStrategy.eq_of_keyword_eq

/-- Suppose that the properties give a positive number of iterations, and a strategy that takes a
budget. Then they are refused, or the number is the budget of all searches if it is at most the
greatest budget. A greater number is dropped without an error, and the engine uses its own. -/
theorem iterations_of_positive (hv : props.get? "coral.iterations" = some v)
    (hn : integer v = .ok n) (hpos : 0 < n) (hk : props.GivesStrategy k)
    (hbudget : k.takesBudget = true) :
    (∃ err, props.configuration = .error err) ∨
      ∃ c, props.configuration = .ok c ∧ ∀ engine, ∃ s, Solver.create engine c = .ok s ∧
        s.settings.iterations =
          if n ≤ Configuration.greatestBudget then some n.toNat else none := by
  rcases hc : props.configuration with err | c
  · exact .inl ⟨err, rfl⟩
  · obtain ⟨hdescribes, hvalid⟩ := describes_of_configuration hc
    refine .inr ⟨c, rfl, fun engine ↦ ⟨⟨engine, c⟩, Solver.create_of_valid engine hvalid, ?_⟩⟩
    calc (if c.strategy.takesBudget then c.iterations else none)
        = c.iterations := by rw [hdescribes.strategy_eq hk, if_pos hbudget]
      _ = budget? n := hdescribes.iterations_eq hv hn
      _ = if n ≤ Configuration.greatestBudget then some n.toNat else none := budget?_of_pos hpos

/-- The greatest budget is kept. -/
theorem iterations_of_positive_greatest :
    let props : Properties := [("coral.solver", "avm"), ("coral.iterations", " 4294967295 ")]
    ∃ c, props.configuration = .ok c ∧ ∀ engine, ∃ s, Solver.create engine c = .ok s ∧
      s.settings.iterations = some Configuration.greatestBudget := by
  intro props
  have hread : integer " 4294967295 " = .ok Configuration.greatestBudget := rfl
  have hstrategy : props.GivesStrategy .alternatingVariable := rfl
  have hok : props.configuration =
      .ok { strategy := .alternatingVariable, iterations := some Configuration.greatestBudget } :=
    rfl
  rcases iterations_of_positive (by decide) hread (by decide) hstrategy rfl with ⟨err, herr⟩ | h
  · cases hok.symm.trans herr
  · exact h

/-- With one more iteration than that, no budget is left, and there is no error. -/
theorem iterations_dropped :
    let props : Properties := [("coral.iterations", "4294967296")]
    props.get? "coral.iterations" = some "4294967296" ∧
      integer "4294967296" = .ok 4294967296 ∧
      props.GivesStrategy .particleSwarm ∧
      SearchStrategy.particleSwarm.takesBudget = true ∧
      props.configuration = .ok {} ∧
      ∀ engine, Solver.create engine {} = .ok ⟨engine, {}⟩ ∧
        (⟨engine, {}⟩ : Solver).settings.iterations = none :=
  ⟨by decide, rfl, rfl, rfl, rfl, fun _ ↦ ⟨rfl, rfl⟩⟩

end ConstraintSearch.Properties

import ConstraintSearch.Proofs.Lowering.Simulation
import ConstraintSearch.Proofs.Search.Outcomes

/-!
# Soundness of satisfying answers

If the engine finds its path condition satisfiable and the assignment it gives does satisfy it,
then the formula holds under the valuation that the solver returns. Nothing is asked of the
engine beyond that: it may answer with scalars of other kinds than those of the literals, and
for literals that do not occur.

Evaluation of the path condition is strict, so an assignment that satisfies it has given every
literal a datum of its kind. These data are recovered for the variables, and so the valuation and
the assignment agree on all variables of the formula.
-/

namespace ConstraintSearch

open Lower

/-! ### The assignment of a satisfying answer -/

namespace Lowers

variable {σ : Assignment} {s' : LoweringState} {e : Expr} {t : KindedTerm} {n : Nat}

/-- Where the term of an expression has a value, all literals that were bound for it can be looked
up at their kinds. -/
theorem exists_lookup {v : t.kind.Carrier} (h : Lowers ⟨[], n⟩ e t s')
    (hv : t.term.evaluate σ = .ok v) :
    ∀ b ∈ s'.bindings, ∃ a, σ.lookup b.literal.kind b.literal.id = .ok a := by
  intro b hb
  have hx : b.var ∈ e.vars := (h.boundBy.mem_iff b.var).1 (List.mem_map_of_mem hb)
  obtain ⟨l, hl, ho⟩ := h.covers b.var hx
  obtain rfl : b.literal = l := Option.some.inj ((h.boundBy.unique.literal?_eq hb).symm.trans hl)
  exact Term.lookup_of_evaluate_ok hv _ ho

/-- The valuation that is recovered from such an assignment agrees with it. -/
theorem exists_recover_agrees {v : t.kind.Carrier} (ν : Valuation) (h : Lowers ⟨[], n⟩ e t s')
    (hv : t.term.evaluate σ = .ok v) :
    ∃ ν', recover s'.bindings σ ν = .ok ν' ∧ ∀ x ∈ e.vars, Agrees ν' σ s' x := by
  have hlookup := h.exists_lookup hv
  obtain ⟨hunique, hkind, -⟩ := h.boundBy
  obtain ⟨ν', hν', hget⟩ := exists_recover (ν := ν) hunique hkind hlookup
  refine ⟨ν', hν', fun x hx ↦ ?_⟩
  obtain ⟨l, hl, -⟩ := h.covers x hx
  have hb := LoweringState.mem_bindings_of_literal? hl
  obtain ⟨a, ha⟩ := hlookup _ hb
  refine agrees_of_literal? (hget _ hb) (Ty.ofKind_of_kind? (hkind _ hb)) hl ?_
  exact KindedTerm.evaluate_eq_ok_iff.2 ⟨_, Binding.lookup_datum ha, rfl⟩

end Lowers

/-! ### The solver -/

/-- A boolean expression whose value is true holds. -/
theorem Expr.holds_of_sameOutcome {e : Expr} {ν : Valuation} {b : Bool}
    (h : SameOutcome (k := .bool) (e.evaluate ν) (.ok b)) : e.holds ν = .ok b := by
  rcases hv : e.evaluate ν with err | v
  · rw [hv] at h
    cases h
  · rw [hv] at h
    cases h
    rw [holds, hv]
    rfl

/-- A satisfiable path condition with an assignment from which the valuation is recovered. -/
theorem Solver.solveWith_eq {s : Solver} {e : Expr} {ν ν' : Valuation} {st : SolverState}
    {pc : PathCondition} {pass : LoweringState} {σ : Assignment}
    (hlower : e.lowerCondition.run ⟨[], 0⟩ = (.ok pc, pass))
    (hsat : s.engine st.searches pc s.settings = .solved ⟨.sat, σ⟩)
    (hrecover : recover pass.bindings σ ν = .ok ν') :
    (s.solveWith e ν st).1 = ⟨.ok .sat, some ⟨pc, s.settings⟩, ν'⟩ := by
  unfold solveWith
  rw [run_of_ok hlower, hsat, settle_sat hrecover]

/-- A satisfying answer is sound. If the engine answers the path condition of a faithful formula
with an assignment under which the path condition holds, the formula is satisfiable, and it holds
under the valuation afterwards. -/
theorem Solver.solveWith_sound {s : Solver} {e : Expr} {ν : Valuation} {st : SolverState}
    {pc : PathCondition} {pass : LoweringState} {σ : Assignment} (hf : e.Faithful)
    (hlower : e.lowerCondition.run ⟨[], 0⟩ = (.ok pc, pass))
    (hsat : s.engine st.searches pc s.settings = .solved ⟨.sat, σ⟩)
    (hpc : pc.evaluate σ = .ok true) :
    (s.solveWith e ν st).1.query = some ⟨pc, s.settings⟩ ∧
      (s.solveWith e ν st).1.verdict = .ok .sat ∧
      e.holds (s.solveWith e ν st).1.valuation = .ok true := by
  obtain ⟨t, ht, rfl⟩ := Expr.lowerCondition_run_iff.1 hlower
  rw [PathCondition.evaluate_singleton] at hpc
  obtain ⟨ν', hν', hagrees⟩ := ht.exists_recover_agrees ν hpc
  rw [solveWith_eq hlower hsat hν']
  have hsame : SameOutcome (k := .bool) (e.evaluate ν') (t.evaluate σ) := ht.sameOutcome hf hagrees
  rw [hpc] at hsame
  exact ⟨rfl, rfl, Expr.holds_of_sameOutcome hsame⟩

namespace Remainder

/-- The engine that gives `x` the float two and `d` the integer five, and a boolean to a literal
that does not occur. -/
def solver : Solver :=
  .withDefaults fun _ _ _ ↦ .solved ⟨.sat,
    ⟨[(0, ⟨.double, .ofInt .w64 2⟩), (1, ⟨.int, 5#32⟩), (9, ⟨.bool, false⟩)]⟩⟩

/-- The comparison `7 % x < d` holds under the valuation that is recovered. -/
theorem solveWith_sound_comparison :
    (solver.solveWith comparison Table.empty Solver.initialState).1.verdict = .ok .sat ∧
      comparison.holds
        (solver.solveWith comparison Table.empty Solver.initialState).1.valuation = .ok true :=
  (Solver.solveWith_sound faithful_comparison rfl rfl rfl).2

end Remainder

end ConstraintSearch

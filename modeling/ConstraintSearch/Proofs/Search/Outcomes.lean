import ConstraintSearch.Proofs.Lowering.Unknowns
import ConstraintSearch.Proofs.Search.Recovery
import ConstraintSearch.Search.Solver

/-!
# Outcomes of solving

What solving a formula comes to is settled in two steps: either the formula cannot be lowered and
there is no search (`Solver.run_of_error`), or there is one search, whose outcome alone decides on
the verdict and the valuation (`Solver.run_of_ok`, `Solver.settle`). A valuation is touched in one
case only, when the engine finds the formula satisfiable and all variables can be recovered; then it
gets values for the variables of the formula and for no others. And whether a valuation is asked for
changes the verdict in one case only, when a variable cannot be recovered, because the engine has
answered with a boolean for a number or the other way round.
-/

namespace ConstraintSearch

/-! ### One search and what becomes of it -/

/-- The verdict that the outcome of a search stands for: a search that fails leaves it open. -/
def SearchOutcome.verdict (o : SearchOutcome) : Verdict :=
  (o.solution?.map Solution.verdict).getD .unknown

namespace Solver

variable {s : Solver} {e : Expr} {ν : Valuation} {st : SolverState} {wanted : Bool}
  {pc : PathCondition} {pass : LoweringState} {err : LoweringError}

/-- The verdict on the outcome of a search, and the valuation with it. -/
def settle (wanted : Bool) (bs : List Binding) (ν : Valuation) (o : SearchOutcome) :
    Verdict × Valuation :=
  match o.solution? with
  | none => (.unknown, ν)
  | some solution => if wanted then adopt bs ν solution else (solution.verdict, ν)

/-- A formula that cannot be lowered is an error, and there is no search. -/
theorem run_of_error (h : e.lowerCondition.run ⟨[], 0⟩ = (.error err, pass)) :
    s.run wanted e ν st = (⟨.error err, none, ν⟩, ⟨st.searches, pass.next⟩) := by
  unfold run
  rw [show (resetIds st).nextLiteral = 0 from rfl, h]

/-- For a formula that can be lowered there is one search, and its outcome decides. -/
theorem run_of_ok (h : e.lowerCondition.run ⟨[], 0⟩ = (.ok pc, pass)) :
    s.run wanted e ν st =
      (⟨.ok (settle wanted pass.bindings ν (s.engine st.searches pc s.settings)).1,
        some ⟨pc, s.settings⟩,
        (settle wanted pass.bindings ν (s.engine st.searches pc s.settings)).2⟩,
        ⟨st.searches + 1, pass.next⟩) := by
  unfold run
  rw [show (resetIds st).nextLiteral = 0 from rfl, h]
  rfl

/-- If no valuation is asked for, the verdict is that of the search. -/
theorem settle_false (bs : List Binding) (ν : Valuation) (o : SearchOutcome) :
    settle false bs ν o = (o.verdict, ν) := by
  cases o <;> rfl

/-- A satisfying answer from which a valuation is recovered. -/
theorem settle_sat {bs : List Binding} {σ : Assignment} {ν' : Valuation}
    (h : recover bs σ ν = .ok ν') : settle true bs ν (.solved ⟨.sat, σ⟩) = (.sat, ν') := by
  show adopt bs ν ⟨.sat, σ⟩ = _
  unfold adopt
  dsimp only
  rw [h]

/-- A satisfying answer from which no valuation is recovered. -/
theorem settle_sat_of_error {bs : List Binding} {σ : Assignment} {err : ValueReadError}
    (h : recover bs σ ν = .error err) :
    settle true bs ν (.solved ⟨.sat, σ⟩) = (.unknown, ν) := by
  show adopt bs ν ⟨.sat, σ⟩ = _
  unfold adopt
  dsimp only
  rw [h]

/-- If a valuation is asked for, then a satisfying answer counts only if it is recovered, and the
valuation is touched in no other case. -/
theorem settle_true (bs : List Binding) (ν : Valuation) (o : SearchOutcome) :
    (∃ σ ν', o = .solved ⟨.sat, σ⟩ ∧ recover bs σ ν = .ok ν' ∧
        settle true bs ν o = (.sat, ν')) ∨
      (∃ σ err, o = .solved ⟨.sat, σ⟩ ∧ recover bs σ ν = .error err ∧
        settle true bs ν o = (.unknown, ν)) ∨
      (o.verdict ≠ .sat ∧ settle true bs ν o = (o.verdict, ν)) := by
  match o with
  | .solved ⟨.sat, σ⟩ =>
    rcases hrecover : recover bs σ ν with err | ν'
    · exact .inr (.inl ⟨σ, err, rfl, hrecover, settle_sat_of_error hrecover⟩)
    · exact .inl ⟨σ, ν', rfl, hrecover, settle_sat hrecover⟩
  | .solved ⟨.unsat, _⟩ => exact .inr (.inr ⟨nofun, rfl⟩)
  | .solved ⟨.unknown, _⟩ => exact .inr (.inr ⟨nofun, rfl⟩)
  | .failed _ => exact .inr (.inr ⟨nofun, rfl⟩)
  | .unsupported _ => exact .inr (.inr ⟨nofun, rfl⟩)
  | .crashed _ => exact .inr (.inr ⟨nofun, rfl⟩)

end Solver

/-! ### All values or none -/

/-- The second valuation has values of their types for all of the variables, and is the first one
elsewhere. -/
structure Valuation.Completes (ν ν' : Valuation) (xs : List Variable) : Prop where
  typed : ∀ x ∈ xs, ∃ a, ν'.get? x = some a ∧ a.ty = x.ty
  frame : ∀ x, x ∉ xs → ν'.get? x = ν.get? x

/-- A valuation that is recovered has values for the variables of the formula and no others. -/
theorem Expr.BoundBy.completes {e : Expr} {pass : LoweringState} {σ : Assignment}
    {ν ν' : Valuation} (h : e.BoundBy pass) (hrecover : recover pass.bindings σ ν = .ok ν') :
    ν.Completes ν' e.vars := by
  obtain ⟨-, rfl⟩ := (recover_eq_ok_iff h.kind?_eq).1 hrecover
  constructor
  · intro x hx
    obtain ⟨b, hb, rfl⟩ := List.mem_map.1 ((h.mem_iff x).2 hx)
    have hty : (b.value σ).ty = b.var.ty := by
      rw [Binding.value, Value.ty_ofScalar]
      exact Ty.ofKind_of_kind? (h.kind?_eq b hb)
    exact ⟨_, get?_recovered_of_mem h.unique hb, hty⟩
  · intro x hx
    exact get?_recovered_of_notMem fun hmem ↦ hx ((h.mem_iff x).1 hmem)

namespace Solver

variable {s : Solver} {e : Expr} {ν : Valuation} {st : SolverState}

/-- Nothing but the outcome of the one search matters. -/
theorem run_engine {wanted : Bool} {pc : PathCondition} {pass : LoweringState} {E : Engine}
    (h : e.lowerCondition.run ⟨[], 0⟩ = (.ok pc, pass))
    (hE : E st.searches pc s.settings = s.engine st.searches pc s.settings) :
    ({ s with engine := E } : Solver).run wanted e ν st = s.run wanted e ν st := by
  rw [run_of_ok (s := s) h, ← hE]
  exact run_of_ok h

/-- Solving with a valuation is all or nothing. A formula that can be lowered is searched for
exactly once, and nothing but the outcome of that search matters; for any other formula the engine
is not asked at all. If the verdict is that the formula is satisfiable, then its variables have
values of their types, and all other variables what they had. With any other verdict, and with an
error, the valuation is the one before. -/
theorem solveWith_allOrNone (s : Solver) (e : Expr) (ν : Valuation) (st : SolverState) :
    (match e.lowerCondition.run ⟨[], 0⟩ with
      | (.ok pc, _) =>
        (s.solveWith e ν st).1.query = some ⟨pc, s.settings⟩ ∧
          (s.solveWith e ν st).2.searches = st.searches + 1 ∧
          ∀ E : Engine, E st.searches pc s.settings = s.engine st.searches pc s.settings →
            ({ s with engine := E } : Solver).solveWith e ν st = s.solveWith e ν st
      | (.error err, _) =>
        (s.solveWith e ν st).1.verdict = .error err ∧
          (s.solveWith e ν st).1.query = none ∧
          (s.solveWith e ν st).2.searches = st.searches ∧
          ∀ E : Engine, ({ s with engine := E } : Solver).solveWith e ν st = s.solveWith e ν st) ∧
    ((s.solveWith e ν st).1.verdict = .ok .sat →
      ν.Completes (s.solveWith e ν st).1.valuation e.vars) ∧
    ((s.solveWith e ν st).1.verdict ≠ .ok .sat → (s.solveWith e ν st).1.valuation = ν) := by
  unfold solveWith
  rcases hlower : e.lowerCondition.run ⟨[], 0⟩ with ⟨err | pc, pass⟩
  · simp [run_of_error hlower]
  · have hbound := Expr.boundBy_of_lowerCondition_run hlower
    refine ⟨⟨?_, ?_, fun E hE ↦ run_engine hlower hE⟩, ?_⟩
    · rw [run_of_ok hlower]
    · rw [run_of_ok hlower]
    · rw [run_of_ok hlower]
      dsimp only
      obtain ⟨σ, ν', ho, hrecover, hsettle⟩ | ⟨σ, err, ho, hrecover, hsettle⟩ | ⟨ho, hsettle⟩ :=
        settle_true pass.bindings ν (s.engine st.searches pc s.settings)
      · rw [hsettle]
        exact ⟨fun _ ↦ hbound.completes hrecover, fun h ↦ absurd rfl h⟩
      · rw [hsettle]
        exact ⟨nofun, fun _ ↦ rfl⟩
      · rw [hsettle]
        exact ⟨fun h ↦ absurd (Except.ok.inj h) ho, fun _ ↦ rfl⟩

end Solver

/-! ### Asking for a valuation -/

/-- What the engine answers does not depend on what it was asked before. -/
def Engine.Stateless (E : Engine) : Prop :=
  ∀ m n pc c, E m pc c = E n pc c

/-- The scalar is a number where the type has booleans, or a boolean where it has numbers. -/
def Ty.Misfits (t : Ty) (u : Scalar) : Prop :=
  t = .bool ∧ u.kind ≠ .bool ∨ t.isNumeric ∧ u.kind = .bool

/-- The misfits are the scalars that cannot be converted. -/
theorem Ty.misfits_iff {t : Ty} {k : Kind} (hk : t.kind? = some k) {u : Scalar} :
    t.Misfits u ↔ u.convert? k = none := by
  obtain ⟨- | m, a⟩ := u <;> match t, k with
    | .bool, .bool => simp [Misfits, Scalar.convert?, isNumeric]
    | .num (.machine _), .num _ => simp [Misfits, Scalar.convert?, isNumeric]

/-- A valuation cannot be recovered exactly if one of the variables has been given a misfit. -/
theorem Expr.BoundBy.exists_misfit_iff {e : Expr} {pass : LoweringState} {σ : Assignment}
    {ν : Valuation} (h : e.BoundBy pass) :
    (∃ x ∈ e.vars, ∃ l, pass.literal? x = some l ∧
        x.ty.Misfits ((⟨x, l⟩ : Binding).scalar σ)) ↔
      ∃ err, recover pass.bindings σ ν = .error err := by
  constructor
  · rintro ⟨x, hx, l, hl, hmisfit⟩
    have hb := LoweringState.mem_bindings_of_literal? hl
    rcases hrecover : recover pass.bindings σ ν with err | ν'
    · exact ⟨err, rfl⟩
    · have hconverts := ((recover_eq_ok_iff h.kind?_eq).1 hrecover).1 _ hb
      exact absurd ((Ty.misfits_iff (h.kind?_eq _ hb)).1 hmisfit) hconverts
  · rintro ⟨err, herr⟩
    by_contra hnone
    have hconverts : ∀ b ∈ pass.bindings, b.Converts σ := by
      intro b hb hconvert
      have hx : b.var ∈ e.vars := (h.mem_iff b.var).1 (List.mem_map_of_mem hb)
      have hmisfit := (Ty.misfits_iff (h.kind?_eq b hb)).2 hconvert
      exact hnone ⟨b.var, hx, b.literal, h.unique.literal?_eq hb, hmisfit⟩
    have hok := (recover_eq_ok_iff (ν := ν) h.kind?_eq).2 ⟨hconverts, rfl⟩
    rw [herr] at hok
    cases hok

namespace Solver

variable {s : Solver} {e : Expr} {ν : Valuation} {st : SolverState}

/-- The engine finds the formula satisfiable, but what it assigns to the literal of one of the
variables, or the seed if it assigns nothing, is a misfit. -/
def Misanswered (s : Solver) (e : Expr) (st : SolverState) : Prop :=
  ∃ pc pass σ, e.lowerCondition.run ⟨[], 0⟩ = (.ok pc, pass) ∧
    s.engine st.searches pc s.settings = .solved ⟨.sat, σ⟩ ∧
    ∃ x ∈ e.vars, ∃ l, pass.literal? x = some l ∧ x.ty.Misfits ((⟨x, l⟩ : Binding).scalar σ)

theorem misanswered_iff {pc : PathCondition} {pass : LoweringState} (ν : Valuation)
    (hlower : e.lowerCondition.run ⟨[], 0⟩ = (.ok pc, pass)) :
    s.Misanswered e st ↔ ∃ σ err, s.engine st.searches pc s.settings = .solved ⟨.sat, σ⟩ ∧
      recover pass.bindings σ ν = .error err := by
  have hbound := Expr.boundBy_of_lowerCondition_run hlower
  constructor
  · rintro ⟨_, _, σ, hlower', ho, hmisfit⟩
    simp only [hlower, Prod.mk.injEq, Except.ok.injEq] at hlower'
    obtain ⟨rfl, rfl⟩ := hlower'
    obtain ⟨err, herr⟩ := hbound.exists_misfit_iff.1 hmisfit
    exact ⟨σ, err, ho, herr⟩
  · rintro ⟨σ, err, ho, herr⟩
    exact ⟨pc, pass, σ, hlower, ho, hbound.exists_misfit_iff.2 ⟨err, herr⟩⟩

/-- With an engine that does not remember, asking for a valuation changes the verdict in one case
only. If the engine finds the formula satisfiable and gives one of its variables a misfit, then the
formula is satisfiable as long as no valuation is asked for, and otherwise the verdict is left open.
In all other cases the verdicts, or the errors, are the same. -/
theorem solveWith_verdict (hs : s.engine.Stateless) (e : Expr) (ν ν' : Valuation)
    (st st' : SolverState) :
    (s.Misanswered e st → (s.solve e ν' st').1.verdict = .ok .sat ∧
        (s.solveWith e ν st).1.verdict = .ok .unknown) ∧
      (¬ s.Misanswered e st →
        (s.solve e ν' st').1.verdict = (s.solveWith e ν st).1.verdict) := by
  unfold solve solveWith
  rcases hlower : e.lowerCondition.run ⟨[], 0⟩ with ⟨err | pc, pass⟩
  · rw [run_of_error hlower, run_of_error hlower]
    refine ⟨fun ⟨_, _, _, hlower', _⟩ ↦ ?_, fun _ ↦ rfl⟩
    rw [hlower] at hlower'
    cases hlower'
  · rw [run_of_ok hlower, run_of_ok hlower, settle_false, hs st'.searches st.searches,
      misanswered_iff ν hlower]
    dsimp only
    obtain ⟨σ, ν₁, ho, hrecover, hsettle⟩ | ⟨σ, err, ho, hrecover, hsettle⟩ | ⟨ho, hsettle⟩ :=
      settle_true pass.bindings ν (s.engine st.searches pc s.settings)
    · rw [hsettle, ho]
      refine ⟨fun ⟨_, err, ho', herr⟩ ↦ ?_, fun _ ↦ rfl⟩
      cases ho'
      rw [hrecover] at herr
      cases herr
    · rw [hsettle, ho]
      exact ⟨fun _ ↦ ⟨rfl, rfl⟩, fun hnot ↦ absurd ⟨σ, err, rfl, hrecover⟩ hnot⟩
    · rw [hsettle]
      refine ⟨fun ⟨_, err, ho', _⟩ ↦ absurd ?_ ho, fun _ ↦ rfl⟩
      rw [ho']
      rfl

end Solver

namespace BooleanForNumber

/-! An engine that answers with booleans throughout, and a formula over a boolean and a number. -/

def solver : Solver :=
  .withDefaults fun _ _ _ ↦ .solved ⟨.sat, ⟨[(0, ⟨.bool, false⟩), (1, ⟨.bool, true⟩)]⟩⟩

def d : Variable := ⟨"d", .double⟩

def formula : Expr :=
  .connect (.boolean .or) (.var ⟨"b", .bool⟩) (.compare .le (.var d) (.var d))

theorem solveWith_verdict_formula :
    (solver.solve formula Table.empty ⟨3, 9⟩).1.verdict = .ok .sat ∧
      (solver.solveWith formula Table.empty Solver.initialState).1.verdict = .ok .unknown := by
  have hd : d ∈ formula.vars := by simp [formula, Expr.vars]
  have hmisfit : Ty.double.Misfits ⟨.bool, true⟩ := .inr ⟨rfl, rfl⟩
  have hmisanswered : solver.Misanswered formula Solver.initialState :=
    ⟨_, _, _, rfl, rfl, d, hd, ⟨1, .double⟩, rfl, hmisfit⟩
  exact (Solver.solveWith_verdict (fun _ _ _ _ ↦ rfl) formula _ _ _ _).1 hmisanswered

end BooleanForNumber

end ConstraintSearch

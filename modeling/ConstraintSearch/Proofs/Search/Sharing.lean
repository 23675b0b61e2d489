import ConstraintSearch.Proofs.Search.Contexts

/-!
# Contexts that share a solver

Contexts on one solver do not interfere with each other, nor do formulas that are solved without a
context, if the engine has no memory. What is shared is the numbering of literals, which every
formula starts anew, whether the last one could be lowered or not, and the engine itself.

A call on another context, or on none, leaves a context as it is (`contexts_step_of_not_isOn`), and
a call on a context depends on nothing else (`step_congr`). So a run with all calls and a run with
only those on one context remain in step as far as that context goes, and it cannot be told from
its answers which of the two it is in (`filter_trace`).
-/

namespace ConstraintSearch

variable {ι : Type} [DecidableEq ι] {i : ι}

/-- The call is one on the context. -/
def SharedCall.isOn (i : ι) : SharedCall ι → Bool
  | .create j => j = i
  | .context j _ => j = i
  | .solve .. => false
  | .resetIds => false

namespace SharedSolver

variable {s : Solver} {x y : SharedSolver ι} {c : SharedCall ι}

/-! ### Single calls -/

theorem contexts_setContext_self (a : AssertionStack) : (x.setContext i a).contexts i = a :=
  if_pos rfl

theorem contexts_setContext_of_ne {j : ι} (h : j ≠ i) (a : AssertionStack) :
    (x.setContext j a).contexts i = x.contexts i :=
  if_neg h.symm

/-- A context is left alone by the calls that are not on it. -/
theorem contexts_step_of_not_isOn (h : c.isOn i = false) :
    (x.step s c).2.contexts i = x.contexts i := by
  cases c with
  | create j => exact contexts_setContext_of_ne (of_decide_eq_false h) _
  | context j c => exact contexts_setContext_of_ne (of_decide_eq_false h) _
  | solve wanted e ν => rfl
  | resetIds => rfl

/-- A call on a context depends on that context only, and so does what it makes of it. -/
theorem step_congr (hs : s.engine.Stateless) (h : x.contexts i = y.contexts i)
    (hc : c.isOn i = true) :
    (x.step s c).1 = (y.step s c).1 ∧
      (x.step s c).2.contexts i = (y.step s c).2.contexts i := by
  cases c with
  | create j =>
    obtain rfl : j = i := of_decide_eq_true hc
    refine ⟨rfl, ?_⟩
    show (x.setContext j .empty).contexts j = (y.setContext j .empty).contexts j
    rw [contexts_setContext_self, contexts_setContext_self]
  | context j c =>
    obtain rfl : j = i := of_decide_eq_true hc
    have halike : Context.Alike s ⟨x.contexts j, x.state⟩ ⟨y.contexts j, y.state⟩ :=
      ⟨h, s.alike_of_stateless hs x.state y.state⟩
    obtain ⟨hanswer, hnext⟩ := halike.step c
    refine ⟨hanswer, ?_⟩
    show (x.setContext j _).contexts j = (y.setContext j _).contexts j
    rw [contexts_setContext_self, contexts_setContext_self]
    exact hnext.stack
  | solve wanted e ν => cases hc
  | resetIds => cases hc

/-! ### Sequences of calls -/

/-- Calls with their answers. -/
def trace (s : Solver) (x : SharedSolver ι) :
    List (SharedCall ι) → List (SharedCall ι × CallAnswer)
  | [] => []
  | c :: calls => (c, (x.step s c).1) :: trace s (x.step s c).2 calls

/-- The calls on a context are answered as if there were no other ones, from any state on in which
the context is the same. -/
theorem filter_trace_of_contexts_eq (hs : s.engine.Stateless) (h : x.contexts i = y.contexts i)
    (calls : List (SharedCall ι)) :
    (trace s x calls).filter (fun p ↦ p.1.isOn i) =
      trace s y (calls.filter (SharedCall.isOn i)) := by
  induction calls generalizing x y with
  | nil => rfl
  | cons c calls ih =>
    rw [trace]
    rcases hc : c.isOn i with - | -
    · have hx : (x.step s c).2.contexts i = y.contexts i := (contexts_step_of_not_isOn hc).trans h
      rw [List.filter_cons_of_neg (by simp [hc]), List.filter_cons_of_neg (by simp [hc]), ih hx]
    · obtain ⟨hanswer, hnext⟩ := step_congr hs h hc
      rw [List.filter_cons_of_pos (by simpa using hc), List.filter_cons_of_pos hc, trace, hanswer,
        ih hnext]

/-- Contexts on one solver do not interfere. If the engine has no memory, then every call on a
context is answered as if all calls on other contexts, and all calls on the solver itself, had never
been made. The answer to a formula that is solved has the verdict, the path condition and the
settings that the engine was given, and the valuation afterwards. Every call comes with a valuation
of its own, be it one that an earlier call has written. -/
theorem filter_trace (s : Solver) (hs : s.engine.Stateless) (x : SharedSolver ι) (i : ι)
    (calls : List (SharedCall ι)) :
    (trace s x calls).filter (fun p ↦ p.1.isOn i) =
      trace s x (calls.filter (SharedCall.isOn i)) :=
  filter_trace_of_contexts_eq hs rfl calls

end SharedSolver

namespace TwoContexts

/-! Two contexts that are worked on in turn. Between the calls on the first one, the formula of the
second one fails to be lowered when a variable has been bound already, and another formula is solved
on the solver itself. -/

def b : Variable := ⟨"b", .bool⟩

/-- The engine makes the first literal true. -/
def solver : Solver :=
  .withDefaults fun _ _ _ ↦ .solved ⟨.sat, ⟨[(0, ⟨.bool, true⟩)]⟩⟩

def shared : SharedSolver Bool := ⟨Solver.initialState, fun _ ↦ .empty⟩

/-- A formula that cannot be lowered, because of the second operand. -/
def illTyped : Expr := .connect (.boolean .and) (.var ⟨"c", .bool⟩) (.neg (.var b))

def calls : List (SharedCall Bool) :=
  [.create false, .context false (.change .push), .create true, .context true (.change .push),
    .context true (.change (.add [illTyped])), .context false (.change (.add [.var b])),
    .context true (.solve true Table.empty), .solve false (.var ⟨"c", .bool⟩) Table.empty,
    .context false (.solve true Table.empty), .resetIds, .context true (.change (.pop 2)),
    .context false .assertion]

theorem filter_trace_calls :
    solver.engine.Stateless ∧
      ∃ result : SolveResult,
        (shared.trace solver calls).filter (fun p ↦ p.1.isOn false) =
          [(.create false, .done), (.context false (.change .push), .done),
            (.context false (.change (.add [.var b])), .done),
            (.context false (.solve true Table.empty), .solved result),
            (.context false .assertion, .formula (some (.var b)))] ∧
        result.verdict = .ok .sat ∧ result.valuation.get? b = some ⟨.bool, true⟩ := by
  have hs : solver.engine.Stateless := fun _ _ _ _ ↦ rfl
  exact ⟨hs, _, SharedSolver.filter_trace solver hs shared false calls, rfl, rfl⟩

end TwoContexts

end ConstraintSearch

import ConstraintSearch.Proofs.Search.Outcomes
import ConstraintSearch.Search.Context

/-!
# Calls on a context

What a call on a context answers depends on the assertions and on the engine only: literals are
numbered afresh for every formula, so what a solver keeps matters in one respect, namely how often
the engine has been asked already. Contexts that differ in nothing else are *alike*
(`Context.Alike`), and remain so under all calls (`Context.trace_alike`).

A *scope* is opened with a new frame, and closed when the frames above the old ones are popped. The
frames below cannot be reached in between, whatever is called, as long as the new frame is not
popped itself: `AssertionStack.Above` is what one call keeps, and `Context.pop_scope` is what it
comes to for a whole scope.
-/

namespace ConstraintSearch

/-! ### What a solver remembers -/

namespace Solver

variable {s : Solver} {st st' : SolverState}

/-- From both states on, the engine answers in the same way. -/
def Alike (s : Solver) (st st' : SolverState) : Prop :=
  ∀ n, s.engine (st.searches + n) = s.engine (st'.searches + n)

/-- An engine without memory answers in the same way from all states on. -/
theorem alike_of_stateless (h : s.engine.Stateless) (st st' : SolverState) : s.Alike st st' := by
  intro n
  funext pc c
  exact h _ _ pc c

/-- From alike states, solving a formula comes to the same, and leads to alike states. -/
theorem Alike.run (h : s.Alike st st') (wanted : Bool) (e : Expr) (ν : Valuation) :
    (s.run wanted e ν st).1 = (s.run wanted e ν st').1 ∧
      s.Alike (s.run wanted e ν st).2 (s.run wanted e ν st').2 := by
  rcases hlower : e.lowerCondition.run ⟨[], 0⟩ with ⟨err | pc, pass⟩
  · rw [run_of_error hlower, run_of_error hlower]
    exact ⟨rfl, h⟩
  · have hengine : s.engine st.searches = s.engine st'.searches := h 0
    rw [run_of_ok hlower, run_of_ok hlower, hengine]
    refine ⟨rfl, fun n ↦ ?_⟩
    have hnext := h (1 + n)
    rwa [← Nat.add_assoc, ← Nat.add_assoc] at hnext

end Solver

namespace Context

variable {s : Solver} {x y : Context} {c : ContextCall}

/-! ### Single calls -/

theorem step_change_of_ok {d : StackCall} {a : AssertionStack} (h : x.stack.call d = .ok a) :
    x.step s (.change d) = (.done, ⟨a, x.solver⟩) := by
  rw [step, h]

theorem step_change_of_error {d : StackCall} {err : StackError}
    (h : x.stack.call d = .error err) : x.step s (.change d) = (.refused err, x) := by
  rw [step, h]

theorem step_solve_of_some {wanted : Bool} {ν : Valuation} {e : Expr}
    (h : x.stack.assertion? = some e) :
    x.step s (.solve wanted ν) =
      (.solved (s.run wanted e ν x.solver).1, ⟨x.stack, (s.run wanted e ν x.solver).2⟩) := by
  rw [step, h]

theorem step_solve_of_none {wanted : Bool} {ν : Valuation} (h : x.stack.assertion? = none) :
    x.step s (.solve wanted ν) = (.solved ⟨.ok .unsat, none, ν⟩, x) := by
  rw [step, h]

/-- Calls that ask for something leave the stack as it is. -/
theorem stack_step_solve (wanted : Bool) (ν : Valuation) :
    (x.step s (.solve wanted ν)).2.stack = x.stack := by
  rcases h : x.stack.assertion? with - | e
  · rw [step_solve_of_none h]
  · rw [step_solve_of_some h]

/-- A refused call changes nothing at all. -/
theorem eq_of_step_refused {err : StackError} (h : x.step s c = (.refused err, y)) : y = x := by
  cases c with
  | change d =>
    rcases hcall : x.stack.call d with err' | a
    · rw [step_change_of_error hcall] at h
      exact (congrArg Prod.snd h).symm
    · rw [step_change_of_ok hcall] at h
      cases h
  | assertion => cases h
  | solve wanted ν =>
    rcases hassertion : x.stack.assertion? with - | e
    · rw [step_solve_of_none hassertion] at h
      cases h
    · rw [step_solve_of_some hassertion] at h
      cases h

/-! ### Sequences of calls -/

/-- The context after some calls. -/
def after (s : Solver) (x : Context) (calls : List ContextCall) : Context :=
  calls.foldl (fun x c ↦ (x.step s c).2) x

/-- Calls with their answers. -/
def trace (s : Solver) (x : Context) : List ContextCall → List (ContextCall × CallAnswer)
  | [] => []
  | c :: calls => (c, (x.step s c).1) :: trace s (x.step s c).2 calls

/-- The contexts have the same assertions, and their engine answers in the same way from now on. -/
structure Alike (s : Solver) (x y : Context) : Prop where
  stack : x.stack = y.stack
  solver : s.Alike x.solver y.solver

/-- Alike contexts answer a call in the same way, and remain alike. -/
theorem Alike.step (h : Alike s x y) (c : ContextCall) :
    (x.step s c).1 = (y.step s c).1 ∧ Alike s (x.step s c).2 (y.step s c).2 := by
  obtain ⟨a, st⟩ := x
  obtain ⟨b, st'⟩ := y
  obtain ⟨rfl, hst⟩ := h
  cases c with
  | change d =>
    rcases hcall : a.call d with err | b
    · rw [step_change_of_error hcall, step_change_of_error hcall]
      exact ⟨rfl, rfl, hst⟩
    · rw [step_change_of_ok hcall, step_change_of_ok hcall]
      exact ⟨rfl, rfl, hst⟩
  | assertion => exact ⟨rfl, rfl, hst⟩
  | solve wanted ν =>
    rcases hassertion : a.assertion? with - | e
    · rw [step_solve_of_none hassertion, step_solve_of_none hassertion]
      exact ⟨rfl, rfl, hst⟩
    · obtain ⟨hresult, hstate⟩ := hst.run wanted e ν
      rw [step_solve_of_some hassertion, step_solve_of_some hassertion, hresult]
      exact ⟨rfl, rfl, hstate⟩

/-- Alike contexts answer all calls in the same way. -/
theorem trace_alike (h : Alike s x y) (calls : List ContextCall) :
    trace s x calls = trace s y calls := by
  induction calls generalizing x y with
  | nil => rfl
  | cons c calls ih =>
    obtain ⟨hanswer, hnext⟩ := h.step c
    rw [trace, trace, hanswer, ih hnext]

end Context

/-! ### Scopes -/

namespace AssertionStack

variable {outer : List (List Expr)} {a b : AssertionStack}

/-- There are frames above the outer ones. -/
def Above (outer : List (List Expr)) (a : AssertionStack) : Prop :=
  ∃ inner, inner ≠ [] ∧ a.frames = inner ++ outer

/-- A call that leaves a frame above the outer ones does not touch these. -/
theorem Above.call {d : StackCall} (h : Above outer a) (hcall : a.call d = .ok b)
    (hdepth : outer.length < b.depth) : Above outer b := by
  obtain ⟨inner, hne, hframes⟩ := h
  cases d with
  | push =>
    cases hcall
    exact ⟨[] :: inner, by simp, by rw [push, hframes, List.cons_append]⟩
  | pop n =>
    rw [AssertionStack.call, pop] at hcall
    split at hcall
    · cases hcall
    · cases hcall
      rw [depth, hframes, List.length_drop, List.length_append] at hdepth
      have hn : n < inner.length := by omega
      refine ⟨inner.drop n, by simpa using hn, ?_⟩
      rw [hframes, List.drop_append_of_le_length hn.le]
  | add es =>
    obtain ⟨frame, inner, rfl⟩ := List.exists_cons_of_ne_nil hne
    rw [AssertionStack.call, add, hframes, List.cons_append] at hcall
    cases hcall
    exact ⟨(frame ++ es) :: inner, by simp, rfl⟩

/-- The frames above the outer ones can be popped. -/
theorem Above.pop (h : Above outer a) : a.pop (a.depth - outer.length) = .ok ⟨outer⟩ := by
  obtain ⟨inner, -, hframes⟩ := h
  have hdepth : a.depth = inner.length + outer.length := by
    rw [depth, hframes, List.length_append]
  have hdrop : a.frames.drop (a.depth - outer.length) = outer := by
    rw [hdepth, Nat.add_sub_cancel, hframes, List.drop_left]
  rw [AssertionStack.pop, if_neg (by omega), hdrop]

end AssertionStack

namespace Context

variable {s : Solver} {x : Context} {outer : List (List Expr)}

theorem above_step {c : ContextCall} (h : x.stack.Above outer)
    (hdepth : outer.length < (x.step s c).2.stack.depth) : (x.step s c).2.stack.Above outer := by
  cases c with
  | change d =>
    rcases hcall : x.stack.call d with err | a
    · rwa [step_change_of_error hcall]
    · rw [step_change_of_ok hcall] at hdepth ⊢
      exact h.call hcall hdepth
  | assertion => exact h
  | solve wanted ν => rwa [stack_step_solve]

/-- As long as there are frames above the outer ones, these are not touched. -/
theorem above_after {calls : List ContextCall} (h : x.stack.Above outer)
    (hdepth : ∀ p, p <+: calls → outer.length < (x.after s p).stack.depth) :
    (x.after s calls).stack.Above outer := by
  induction calls generalizing x with
  | nil => exact h
  | cons c calls ih =>
    have hfirst := hdepth [c] (List.prefix_append [c] calls)
    exact ih (above_step h hfirst) fun p hp ↦ hdepth (c :: p) (List.prefix_cons_inj c |>.2 hp)

/-- The context after some calls in a new frame. -/
def inScope (s : Solver) (x : Context) (calls : List ContextCall) : Context :=
  x.after s (.change .push :: calls)

theorem above_inScope {calls : List ContextCall}
    (hdepth : ∀ p, p <+: calls → x.stack.depth + 1 ≤ (x.inScope s p).stack.depth) :
    (x.inScope s calls).stack.Above x.stack.frames := by
  have hpush : (x.step s (.change .push)).2.stack.Above x.stack.frames := ⟨[[]], by simp, rfl⟩
  exact above_after (x := (x.step s (.change .push)).2) hpush hdepth

theorem step_pop_refused_iff {n : Nat} :
    x.step s (.change (.pop n)) = (.refused (.popUnderflow n x.stack.depth), x) ↔
      x.stack.depth < n := by
  constructor
  · intro h
    by_contra hn
    have hpop : x.stack.call (.pop n) = .ok ⟨x.stack.frames.drop n⟩ := if_neg hn
    rw [step_change_of_ok hpop] at h
    cases h
  · intro hn
    exact step_change_of_error (if_pos hn)

/-- Scopes restore exactly. A scope is opened by a new frame; whatever is called then, refused or
not, as long as that frame is not popped, to pop down to the old depth gives back the old frames.
From there on all answers are those of the old frames, in whatever state the solver may be, as long
as the engine goes on in the same way (`Solver.alike_of_stateless`). To pop more frames than there
are is refused, and a refused call, be it this one or any other, changes nothing. -/
theorem pop_scope (s : Solver) (x : Context) (calls : List ContextCall)
    (hdepth : ∀ p, p <+: calls → x.stack.depth + 1 ≤ (x.inScope s p).stack.depth) :
    (∃ y : Context, y.stack = x.stack ∧
      (x.inScope s calls).step s (.change
        (.pop ((x.inScope s calls).stack.depth - x.stack.depth))) = (.done, y) ∧
      ∀ later st, s.Alike y.solver st → trace s y later = trace s ⟨x.stack, st⟩ later) ∧
    (∀ (y : Context) (n : Nat),
      y.step s (.change (.pop n)) = (.refused (.popUnderflow n y.stack.depth), y) ↔
        y.stack.depth < n) ∧
    ∀ (y z : Context) (c : ContextCall) (err : StackError),
      y.step s c = (.refused err, z) → z = y := by
  refine ⟨⟨⟨x.stack, (x.inScope s calls).solver⟩, rfl, ?_, fun later st hst ↦ ?_⟩, ?_, ?_⟩
  · exact step_change_of_ok (above_inScope hdepth).pop
  · have halike : Alike s ⟨x.stack, (x.inScope s calls).solver⟩ ⟨x.stack, st⟩ := ⟨rfl, hst⟩
    exact trace_alike halike later
  · exact fun y n ↦ step_pop_refused_iff
  · exact fun y z c err h ↦ eq_of_step_refused h

end Context

namespace NestedScopes

/-! A scope in which frames are opened and closed, one call is refused, and a formula is solved, on
a stack with one assertion. -/

def b : Expr := .var ⟨"b", .bool⟩

def solver : Solver := .withDefaults (.failing "no engine")

def context : Context := ⟨⟨[[b]]⟩, Solver.initialState⟩

def calls : List ContextCall :=
  [.change (.add [.not b]), .change .push, .change .push, .change (.pop 9), .solve true Table.empty,
    .change (.pop 2), .change .push, .change (.add [b, b])]

theorem pop_scope_calls :
    (∀ p, p <+: calls → context.stack.depth + 1 ≤ (context.inScope solver p).stack.depth) ∧
      (context.inScope solver calls).stack.depth = 3 ∧
      (context.inScope solver calls).solver ≠ context.solver ∧
      ∃ y : Context, y.stack = context.stack ∧
        (context.inScope solver calls).step solver (.change (.pop 2)) = (.done, y) ∧
        y.trace solver [.assertion] = [(.assertion, .formula (some b))] := by
  have hdepth : ∀ p ∈ calls.inits,
      context.stack.depth + 1 ≤ (context.inScope solver p).stack.depth := by
    decide
  replace hdepth : ∀ p, p <+: calls →
      context.stack.depth + 1 ≤ (context.inScope solver p).stack.depth :=
    fun p hp ↦ hdepth p ((List.mem_inits p calls).2 hp)
  obtain ⟨⟨y, hy, hpop, hlater⟩, -, -⟩ := Context.pop_scope solver context calls hdepth
  refine ⟨hdepth, rfl, by decide, y, hy, hpop, ?_⟩
  exact hlater [.assertion] y.solver fun _ ↦ rfl

end NestedScopes

end ConstraintSearch

import ConstraintSearch.Proofs.Search.Contexts
import ConstraintSearch.Proofs.Search.Frames

/-!
# Live assertions

What a stack of assertions stands for can be read off the calls that were made on it: the
assertions that were added and have not been taken back, in the order in which they were added
(`StackCall.live`). An assertion is taken back together with its frame, so whether it is live is a
question of how far down the later calls reach (`StackCall.reach`), and frames are nothing but that.

The formula of the stack holds exactly if all live assertions do. The evaluation of a conjunction
is strict, so the first live assertion that has no truth value decides on the error, and here as
in lowering the grouping into frames does not matter (`Interprets.apply_groups`).
-/

namespace ConstraintSearch

/-! ### Conjunctions -/

namespace Expr

variable {ν : Valuation} {e : Expr} {es : List Expr}

/-- Whether all of the expressions hold. All of them are evaluated, one after the other, and the
first failure is the result. -/
def holdsEach (ν : Valuation) (es : List Expr) : Except EvaluationError Bool := do
  let bs ← es.mapM fun e ↦ e.holds ν
  return bs.all id

/-- To evaluate a conjunction is to evaluate its operands. -/
theorem interprets_holds (ν : Valuation) :
    Interprets (fun e ↦ e.holds ν) Expr.and (.const (.ofBool true)) (· && ·) true where
  unit := rfl
  op l r := by
    show (Expr.connect (.boolean .and) l r).holds ν = _
    simp only [holds, evaluate, bind_assoc, pure_bind]
    rfl

/-- The conjunction of groups holds if all of their expressions do. -/
theorem holds_groups (ν : Valuation) (ess : List (List Expr)) :
    (conjunction (ess.map conjunction)).holds ν = holdsEach ν ess.flatten := by
  rw [conjunction_eq_nest, (interprets_holds ν).apply_groups, holdsEach, bind_pure_comp]

theorem holdsEach_cons :
    holdsEach ν (e :: es) = do
      let b ← e.holds ν
      let c ← holdsEach ν es
      return b && c := by
  simp [holdsEach]

theorem holdsEach_eq_true_iff :
    holdsEach ν es = .ok true ↔ ∀ e ∈ es, e.holds ν = .ok true := by
  induction es with
  | nil => exact iff_of_true rfl (List.forall_mem_nil _)
  | cons e es ih =>
    rw [holdsEach_cons, List.forall_mem_cons, ← ih, bind_eq_ok_iff]
    constructor
    · rintro ⟨b, hb, h⟩
      obtain ⟨c, hc, h⟩ := bind_eq_ok_iff.1 h
      obtain ⟨rfl, rfl⟩ : b = true ∧ c = true := by simpa [pure, Except.pure] using h
      exact ⟨hb, hc⟩
    · rintro ⟨hb, hc⟩
      exact ⟨true, hb, by rw [hc]; rfl⟩

end Expr

/-! ### What calls leave -/

namespace StackCall

/-- The number of frames that the call opens. -/
def opens : StackCall → Nat
  | .push => 1
  | _ => 0

/-- The number of frames that the call pops. -/
def pops : StackCall → Nat
  | .pop n => n
  | _ => 0

/-- How many of the frames before the call are popped, by it or later on, if `k` of the frames after
it are popped later on. A new frame is the first one to be popped. -/
def reachFrom : StackCall → Nat → Nat
  | .push, k => k - 1
  | .pop n, k => n + k
  | .add _, k => k

/-- The assertions that the call adds and that stay, if `k` of the frames after it are popped later
on. Assertions are added to the innermost frame, which is the first one to be popped. -/
def kept : StackCall → Nat → List Expr
  | .add es, 0 => es
  | _, _ => []

/-- How many of the frames before the calls are popped by them. -/
def reach (calls : List StackCall) : Nat :=
  calls.foldr reachFrom 0

/-- The assertions that are added by the calls to frames which are not popped by later ones, in the
order in which they are added. -/
def live : List StackCall → List Expr
  | [] => []
  | c :: calls => c.kept (reach calls) ++ live calls

example (a b c : Expr) :
    live [.push, .add [a], .push, .add [b], .push, .pop 2, .add [c], .push] = [a, c] :=
  rfl

/-- The number of frames that are opened. -/
def opened (calls : List StackCall) : Nat :=
  (calls.map opens).sum

/-- The number of frames that are popped. -/
def popped (calls : List StackCall) : Nat :=
  (calls.map pops).sum

end StackCall

namespace AssertionStack

open StackCall

variable {a b : AssertionStack} {ν : Valuation} {c : StackCall} {calls : List StackCall}

/-- The stack without some of its innermost frames. -/
def under (k : Nat) (a : AssertionStack) : AssertionStack :=
  ⟨a.frames.drop k⟩

theorem depth_call (h : a.call c = .ok b) : b.depth + c.pops = a.depth + c.opens := by
  cases c with
  | push =>
    cases h
    rfl
  | pop n =>
    rw [call, pop] at h
    split at h
    · cases h
    · cases h
      simp only [depth, pops, opens, List.length_drop] at *
      omega
  | add es =>
    obtain ⟨- | ⟨frame, outer⟩⟩ := a
    · cases h
    · cases h
      rfl

/-- Frames are opened and popped one for one. -/
theorem depth_foldlM (h : calls.foldlM call a = .ok b) :
    b.depth + popped calls = a.depth + opened calls := by
  induction calls generalizing a with
  | nil =>
    cases h
    rfl
  | cons c calls ih =>
    rw [List.foldlM_cons] at h
    obtain ⟨a', hcall, h⟩ := bind_eq_ok_iff.1 h
    have hfirst := depth_call hcall
    have hlater := ih h
    simp only [opened, popped, List.map_cons, List.sum_cons] at hlater ⊢
    omega

/-- What is live under the frames that are popped after a call has been live before it, or is added
by it. -/
theorem live_call (h : a.call c = .ok b) (k : Nat) :
    (b.under k).live = (a.under (c.reachFrom k)).live ++ c.kept k := by
  cases c with
  | push =>
    cases h
    cases k with
    | zero => simp [push, under, live, reachFrom, kept]
    | succ k => simp [push, under, live, reachFrom, kept]
  | pop n =>
    rw [call, pop] at h
    split at h
    · cases h
    · cases h
      simp [under, reachFrom, kept]
  | add es =>
    obtain ⟨- | ⟨frame, outer⟩⟩ := a
    · cases h
    · cases h
      cases k with
      | zero => simp [under, live, reachFrom, kept]
      | succ k => simp [under, live, reachFrom, kept]

/-- After some calls, the live assertions are those of the frames that have not been popped, and
those that have been added and not taken back. -/
theorem live_foldlM (h : calls.foldlM call a = .ok b) :
    b.live = (a.under (reach calls)).live ++ StackCall.live calls := by
  induction calls generalizing a with
  | nil =>
    cases h
    exact (List.append_nil _).symm
  | cons c calls ih =>
    rw [List.foldlM_cons] at h
    obtain ⟨a', hcall, h⟩ := bind_eq_ok_iff.1 h
    rw [ih h, live_call hcall, List.append_assoc]
    rfl

/-! ### The truth of a stack -/

theorem assertion?_eq_none_iff : a.assertion? = none ↔ a.depth = 0 := by
  rw [assertion?, depth, List.length_eq_zero_iff]
  split
  · next h => simpa using h
  · next h => simpa using h

theorem assertion?_ne_none_iff : a.assertion? ≠ none ↔ a.depth ≠ 0 :=
  not_congr assertion?_eq_none_iff

/-- The formula of a stack has the truth value of its live assertions together. -/
theorem holds_of_assertion?_eq_some {e : Expr} (h : a.assertion? = some e) (ν : Valuation) :
    e.holds ν = Expr.holdsEach ν a.live := by
  have hframes : a.frames ≠ [] := by
    intro hnil
    rw [assertion?, hnil] at h
    cases h
  rw [assertion?_eq_some hframes] at h
  cases h
  exact Expr.holds_groups ν a.frames.reverse

/-- The formula of the stack holds. -/
def Holds (a : AssertionStack) (ν : Valuation) : Prop :=
  ∃ e, a.assertion? = some e ∧ e.holds ν = .ok true

/-- A stack holds if it has frames and all live assertions hold. -/
theorem holds_iff : a.Holds ν ↔ a.depth ≠ 0 ∧ ∀ e ∈ a.live, e.holds ν = .ok true := by
  rw [← assertion?_ne_none_iff, ← Expr.holdsEach_eq_true_iff, Option.ne_none_iff_exists']
  constructor
  · rintro ⟨e, he, htrue⟩
    exact ⟨⟨e, he⟩, by rw [← holds_of_assertion?_eq_some he, htrue]⟩
  · rintro ⟨⟨e, he⟩, htrue⟩
    exact ⟨e, he, by rw [holds_of_assertion?_eq_some he, htrue]⟩

/-- A stack to which assertions have been added has held before. -/
theorem Holds.of_add {es : List Expr} (h : a.call (.add es) = .ok b) (hb : b.Holds ν) :
    a.Holds ν := by
  rw [holds_iff] at hb ⊢
  have hdepth : b.depth + 0 = a.depth + 0 := depth_call h
  have hlive : b.live = a.live ++ es := live_call h 0
  exact ⟨by omega, fun e he ↦ hb.2 e (by rw [hlive]; exact List.mem_append_left _ he)⟩

/-- A stack of which frames have been popped holds as it has held before. -/
theorem Holds.pop {n : Nat} (h : a.call (.pop n) = .ok b) (ha : a.Holds ν)
    (hdepth : b.depth ≠ 0) : b.Holds ν := by
  rw [holds_iff] at ha ⊢
  have hlive : b.live = (a.under n).live ++ [] := live_call h 0
  refine ⟨hdepth, fun e he ↦ ha.2 e ?_⟩
  rw [hlive, List.append_nil] at he
  obtain ⟨frame, hframe, he⟩ := List.mem_flatten.1 he
  have hmem : frame ∈ a.frames := List.mem_of_mem_drop (List.mem_reverse.1 hframe)
  exact List.mem_flatten.2 ⟨frame, List.mem_reverse.2 hmem, he⟩

end AssertionStack

/-! ### Histories -/

namespace Context

variable {s : Solver} {x : Context}

/-- A new context. -/
def fresh (st : SolverState) : Context :=
  ⟨.empty, st⟩

/-- The calls on the stack that are not refused. -/
def accepted (s : Solver) (x : Context) (calls : List ContextCall) : List StackCall :=
  (trace s x calls).filterMap fun
    | (.change c, .done) => some c
    | _ => none

theorem accepted_change_of_ok {d : StackCall} {a : AssertionStack}
    (h : x.stack.call d = .ok a) (calls : List ContextCall) :
    accepted s x (.change d :: calls) = d :: accepted s ⟨a, x.solver⟩ calls := by
  rw [accepted, trace, step_change_of_ok h]
  rfl

theorem accepted_change_of_error {d : StackCall} {err : StackError}
    (h : x.stack.call d = .error err) (calls : List ContextCall) :
    accepted s x (.change d :: calls) = accepted s x calls := by
  rw [accepted, trace, step_change_of_error h]
  rfl

/-- The stack is what the calls on it make of it that are not refused. -/
theorem foldlM_accepted (calls : List ContextCall) :
    (accepted s x calls).foldlM AssertionStack.call x.stack = .ok (x.after s calls).stack := by
  induction calls generalizing x with
  | nil => rfl
  | cons c calls ih =>
    have hlater := ih (x := (x.step s c).2)
    cases c with
    | change d =>
      rcases hcall : x.stack.call d with err | a
      · rw [step_change_of_error hcall] at hlater
        rw [accepted_change_of_error hcall, hlater, after, after, List.foldl_cons,
          step_change_of_error hcall]
      · rw [step_change_of_ok hcall] at hlater
        rw [accepted_change_of_ok hcall, List.foldlM_cons, hcall, after, List.foldl_cons,
          step_change_of_ok hcall]
        exact hlater
    | assertion => exact hlater
    | solve wanted ν =>
      rw [stack_step_solve] at hlater
      exact hlater

/-- The stack of a new context after some calls. -/
def stackAfter (s : Solver) (st : SolverState) (calls : List ContextCall) : AssertionStack :=
  ((fresh st).after s calls).stack

/-- The calls on the stack of a new context that are not refused. -/
def history (s : Solver) (st : SolverState) (calls : List ContextCall) : List StackCall :=
  accepted s (fresh st) calls

theorem foldlM_history (s : Solver) (st : SolverState) (calls : List ContextCall) :
    (history s st calls).foldlM AssertionStack.call .empty = .ok (stackAfter s st calls) :=
  foldlM_accepted (x := fresh st) calls

/-- The stack has the assertions that are live. -/
theorem live_stackAfter (s : Solver) (st : SolverState) (calls : List ContextCall) :
    (stackAfter s st calls).live = StackCall.live (history s st calls) := by
  have hlive := AssertionStack.live_foldlM (foldlM_history s st calls)
  rwa [AssertionStack.under, AssertionStack.empty, List.drop_nil] at hlive

theorem assertion?_stackAfter_eq_none_iff (s : Solver) (st : SolverState)
    (calls : List ContextCall) :
    (stackAfter s st calls).assertion? = none ↔
      StackCall.opened (history s st calls) = StackCall.popped (history s st calls) := by
  have hdepth : (stackAfter s st calls).depth + StackCall.popped (history s st calls) =
      0 + StackCall.opened (history s st calls) :=
    AssertionStack.depth_foldlM (foldlM_history s st calls)
  rw [AssertionStack.assertion?_eq_none_iff]
  omega

/-- A further call on the stack has changed it, or has been refused. -/
theorem stackAfter_change (s : Solver) (st : SolverState) (calls : List ContextCall)
    (d : StackCall) :
    (stackAfter s st calls).call d = .ok (stackAfter s st (calls ++ [.change d])) ∨
      stackAfter s st (calls ++ [.change d]) = stackAfter s st calls := by
  have happend : stackAfter s st (calls ++ [.change d]) =
      (((fresh st).after s calls).step s (.change d)).2.stack := by
    rw [stackAfter, after, List.foldl_append]
    rfl
  rw [happend]
  rcases hcall : ((fresh st).after s calls).stack.call d with err | a
  · exact .inr (by rw [step_change_of_error hcall, stackAfter])
  · exact .inl (by rw [step_change_of_ok hcall]; exact hcall)

/-- A stack means the conjunction of its live assertions. Whatever has been called on a new
context, it has no formula exactly if as many frames have been popped as opened. If it has one, its
truth value under a valuation is that of the live assertions together: the error of the first one
of them that fails, or else whether all of them hold. They are in the order of their frames from
the outermost to the innermost, which is the order in which they have been added. Therefore a stack
that holds after assertions have been added has held before, and a stack that holds still does when
frames have been popped, as long as there is one. -/
theorem assertion_stackAfter (s : Solver) (st : SolverState) (calls : List ContextCall) :
    ((stackAfter s st calls).assertion? = none ↔
      StackCall.opened (history s st calls) = StackCall.popped (history s st calls)) ∧
    (∀ e, (stackAfter s st calls).assertion? = some e →
      ∀ ν, e.holds ν = Expr.holdsEach ν (StackCall.live (history s st calls))) ∧
    (stackAfter s st calls).live = StackCall.live (history s st calls) ∧
    (∀ es ν, (stackAfter s st (calls ++ [.change (.add es)])).Holds ν →
      (stackAfter s st calls).Holds ν) ∧
    ∀ n ν, (stackAfter s st calls).Holds ν →
      (stackAfter s st (calls ++ [.change (.pop n)])).assertion? ≠ none →
        (stackAfter s st (calls ++ [.change (.pop n)])).Holds ν := by
  refine ⟨assertion?_stackAfter_eq_none_iff s st calls, fun e he ν ↦ ?_,
    live_stackAfter s st calls, fun es ν h ↦ ?_, fun n ν h hframe ↦ ?_⟩
  · rw [← live_stackAfter, AssertionStack.holds_of_assertion?_eq_some he]
  · rcases stackAfter_change s st calls (.add es) with hcall | hsame
    · exact .of_add hcall h
    · rwa [hsame] at h
  · rcases stackAfter_change s st calls (.pop n) with hcall | hsame
    · exact .pop hcall h (AssertionStack.assertion?_ne_none_iff.1 hframe)
    · rwa [hsame]

end Context

end ConstraintSearch

import ConstraintSearch.Formula.Expr

/-!
# Assertion stacks

Assertions that are taken back in groups. A stack consists of frames; assertions are added to
the innermost frame, and popping frames takes their assertions back. Without a frame there is
nothing to add to, and no formula.
-/

namespace ConstraintSearch

/-- Frames of assertions, innermost first; the assertions of a frame are in the order in which
they were added. -/
structure AssertionStack where
  frames : List (List Expr)

/-- The calls that change an assertion stack. -/
inductive StackCall
  | push
  | pop (n : Nat)
  | add (es : List Expr)

/-- Why an operation on an assertion stack is refused. -/
inductive StackError
  | noFrame
  | popUnderflow (requested depth : Nat)
  deriving DecidableEq

/-- The wording of the error. -/
def StackError.message : StackError → String
  | .noFrame => "no assertion frame; call push() first"
  | .popUnderflow requested depth =>
    "cannot pop " ++ toString requested ++ " frame(s) from a stack of depth " ++ toString depth

namespace AssertionStack

/-- The stack without frames. -/
def empty : AssertionStack := ⟨[]⟩

instance : Inhabited AssertionStack := ⟨empty⟩

/-- The number of frames. -/
def depth (s : AssertionStack) : Nat :=
  s.frames.length

/-- Opens a frame without assertions. -/
def push (s : AssertionStack) : AssertionStack :=
  ⟨[] :: s.frames⟩

/-- Closes the innermost frames with their assertions, if there are as many. -/
def pop (n : Nat) (s : AssertionStack) : Except StackError AssertionStack :=
  if s.depth < n then .error (.popUnderflow n s.depth) else .ok ⟨s.frames.drop n⟩

/-- Adds assertions to the innermost frame. -/
def add (es : List Expr) (s : AssertionStack) : Except StackError AssertionStack :=
  match s.frames with
  | [] => .error .noFrame
  | frame :: outer => .ok ⟨(frame ++ es) :: outer⟩

/-- The stack after a call, unless the call is refused. -/
def call (s : AssertionStack) : StackCall → Except StackError AssertionStack
  | .push => .ok s.push
  | .pop n => s.pop n
  | .add es => s.add es

/-- The conjunction of the frames from the outermost to the innermost, each the conjunction of
its assertions; without a frame there is none. -/
def assertion? (s : AssertionStack) : Option Expr :=
  if s.frames.isEmpty then none
  else some (Expr.conjunction (s.frames.reverse.map Expr.conjunction))

end AssertionStack

end ConstraintSearch

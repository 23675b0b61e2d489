import ConstraintSearch.Lowering.Unification
import ConstraintSearch.Term.PathCondition

/-!
# Lowering

The translation of source expressions into terms of the engine. A variable becomes a literal
when it is first met, and stays that literal; the literals given so far are the *bindings* of
a lowering pass, in the order in which they were given. What a failed translation has bound
stays bound.

The translation follows the expression from left to right. It leaves out what the engine does
not need: a cast to the declared type of its operand, and the addition or subtraction of a
constant zero, of which only the other operand stays.
-/

namespace ConstraintSearch

/-- An unknown of the engine. -/
structure Literal where
  id : Nat
  kind : Kind
  deriving DecidableEq

namespace Literal

/-- The literal as a term. -/
def toTerm (l : Literal) : KindedTerm :=
  ⟨l.kind, .lit l.id⟩

/-- The scalar that the literal has when nothing is known of it. -/
def seed (l : Literal) : Scalar :=
  Scalar.seed l.kind

/-- The text of the literal. -/
def text (l : Literal) : String :=
  literalText l.kind l.id

end Literal

/-- A variable and its literal. -/
structure Binding where
  var : Variable
  literal : Literal
  deriving DecidableEq

/-- The bindings of a lowering pass, oldest first, and the number of the next literal. -/
structure LoweringState where
  bindings : List Binding
  next : Nat
  deriving DecidableEq

/-- The literal of a variable, if it is bound. -/
def LoweringState.literal? (s : LoweringState) (x : Variable) : Option Literal :=
  (s.bindings.find? fun b ↦ b.var = x).map Binding.literal

/-- Steps of a lowering pass: they may fail, and what they have bound then stays bound. -/
abbrev Lower : Type → Type :=
  EStateM LoweringError LoweringState

namespace Lower

/-- A step that binds nothing: what it requires is there, or it fails. -/
def require {α : Type} : Except LoweringError α → Lower α
  | .ok a => pure a
  | .error e => throw e

/-- The literal of a variable; a new variable is bound to the next literal of its kind. -/
def bind (x : Variable) : Lower Literal := do
  let s ← get
  match s.literal? x with
  | some l => return l
  | none =>
    match x.ty.kind? with
    | none => throw (.unsupportedVariable x)
    | some k =>
      let l : Literal := ⟨s.next, k⟩
      set (⟨s.bindings ++ [⟨x, l⟩], s.next + 1⟩ : LoweringState)
      return l

/-- The term has to be a boolean. -/
def expectBool : KindedTerm → Except LoweringError (Term .bool)
  | ⟨.bool, t⟩ => .ok t
  | ⟨.num n, _⟩ => .error (.notBoolean n)

/-- The term has to be a number. -/
def expectNum : KindedTerm → Except LoweringError NumTerm
  | ⟨.bool, _⟩ => .error .notNumeric
  | ⟨.num n, t⟩ => .ok ⟨n, t⟩

/-- The constant term of a value. A decimal becomes the 64-bit float near it. -/
def constant : Value → KindedTerm
  | ⟨.bool, b⟩ => ⟨.bool, .const b⟩
  | ⟨.num (.machine k), x⟩ => ⟨.num k, .const x⟩
  | ⟨.num .decimal, d⟩ => ⟨.double, .const d.toFloat⟩

/-- A boolean as a term of any kind. -/
def ofBool (t : Term .bool) : KindedTerm :=
  ⟨.bool, t⟩

/-- The negation of a number, as its product with minus one. -/
def negationTerm (t : NumTerm) : Except LoweringError KindedTerm := do
  let p ← t.unify (.minusOne t.kind)
  return (p.arith .mul).toKinded

/-- The comparison of two numbers. -/
def comparisonTerm (op : Comparison) (l r : NumTerm) : Except LoweringError KindedTerm := do
  let p ← l.unify r
  return ofBool (p.compare op)

/-- Which operand of an arithmetic operator stays alone because the other one is a constant
zero that is added or subtracted; a zero at the left is looked at first, also where it is the
minuend. -/
def soleOperand? (op : ArithmeticOp) (l r : Expr) (p : TermPair) : Option NumTerm :=
  if op = .add ∨ op = .sub then
    if l.isMachineZero then some p.rightTerm
    else if r.isMachineZero then some p.leftTerm
    else none
  else none

/-- An arithmetic operator on two numbers, which are the terms of `l` and `r`. -/
def arithmeticTerm (op : ArithmeticOp) (l r : Expr) (lt rt : NumTerm) :
    Except LoweringError KindedTerm := do
  let p ← lt.unify rt
  return ((soleOperand? op l r p).getD (p.arith op)).toKinded

/-- An operator on the bits of two numbers, which have to be words of one width. -/
def bitsTerm (op : BitOp) : NumTerm → NumTerm → Except LoweringError KindedTerm
  | ⟨.integral v, l⟩, ⟨.integral w, r⟩ =>
    if h : v = w then
      let l : Term (.num (.integral w)) := h ▸ l
      match op with
      | .bitwise b => .ok ⟨_, .bitwise b l r⟩
      | .shift s =>
        if hs : s.ExistsAt w then .ok ⟨_, .shift s hs l r⟩
        else .error (.unsupportedOperator op (.integral w))
    else .error (.bitsMismatch op (.integral v) (.integral w))
  | ⟨v, _⟩, ⟨w, _⟩ => .error (.bitsMismatch op v w)

/-- The conversion for a cast: to a 32-bit integer for the integral types, and to a 64-bit
float for the floating-point types. -/
def castTerm (source target : Ty) (k : NumKind) :
    KindedTerm → Except LoweringError KindedTerm
  | ⟨.bool, _⟩ => .error (.unsupportedCast source target)
  | ⟨.num n, t⟩ =>
    if k.isIntegral then .ok ⟨.int, NumTerm.intoInt ⟨n, t⟩⟩
    else .ok ⟨.double, NumTerm.intoDouble ⟨n, t⟩⟩

/-- A function on terms; `none` if their number is not that of the function's arguments. The
test for a NaN asks whether its argument differs from itself. -/
def application? : Builtin → List (Term .double) → Option KindedTerm
  | .unary f, [t] => some ⟨.double, .apply f t⟩
  | .binary f, [l, r] => some ⟨.double, .apply₂ f l r⟩
  | .isNaN, [t] => some (ofBool (.compare .ne t t))
  | _, _ => none

end Lower

namespace Expr

open Lower

mutual

/-- The term of an expression. -/
def lower : Expr → Lower KindedTerm
  | .const v => return constant v
  | .var x => do
    let l ← bind x
    return l.toTerm
  | .not e => do
    let t ← require (expectBool (← e.lower))
    return ofBool (.not t)
  | .neg e => do
    let t ← require (expectNum (← e.lower))
    require (negationTerm t)
  | .compare op l r => do
    let lt ← require (expectNum (← l.lower))
    let rt ← require (expectNum (← r.lower))
    require (comparisonTerm op lt rt)
  | .arith op l r => do
    let lt ← require (expectNum (← l.lower))
    let rt ← require (expectNum (← r.lower))
    require (arithmeticTerm op l r lt rt)
  | .connect (.boolean op) l r => do
    let lt ← require (expectBool (← l.lower))
    let rt ← require (expectBool (← r.lower))
    return ofBool (.logic op lt rt)
  | .connect op _ _ => throw (.unsupportedConnective op)
  | .bits op l r => do
    let lt ← require (expectNum (← l.lower))
    let rt ← require (expectNum (← r.lower))
    require (bitsTerm op lt rt)
  | .cast target e =>
    if e.ty = target then e.lower
    else
      match target with
      | .num (.machine k) => do require (castTerm e.ty target k (← e.lower))
      | _ => throw (.unsupportedCast e.ty target)
  | .call name args =>
    match Builtin.ofName? name with
    | none => throw (.unknownFunction name)
    | some f =>
      if args.length = f.arity then do
        let ts ← lowerAll args
        match application? f ts with
        | some t => return t
        | none => throw (.functionArity name f.arity args.length)
      else throw (.functionArity name f.arity args.length)

/-- The terms of the arguments of a function, as 64-bit floats. -/
def lowerAll : List Expr → Lower (List (Term .double))
  | [] => return []
  | e :: es => do
    let t ← require (expectNum (← e.lower))
    return t.intoDouble :: (← lowerAll es)

end

/-- The path condition of a boolean expression. -/
def lowerCondition (e : Expr) : Lower PathCondition := do
  let t ← require (expectBool (← e.lower))
  return ⟨[t]⟩

end Expr

/-- Runs a step of a lowering pass. -/
def Lower.run {α : Type} (m : Lower α) (s : LoweringState) :
    Except LoweringError α × LoweringState :=
  match EStateM.run m s with
  | .ok a s => (.ok a, s)
  | .error e s => (.error e, s)

end ConstraintSearch

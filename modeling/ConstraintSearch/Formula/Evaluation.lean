import ConstraintSearch.Formula.Expr

/-!
# Evaluation of source expressions

The meaning of an expression under a valuation. Evaluation goes from left to right and stops
at the first failure. Two numbers are cast to the type at which they meet before an operator
applies; integers wrap around, and a connective insists on a boolean at its left before it
looks at its right, but evaluates both whatever the left one is.
-/

namespace ConstraintSearch

/-- What an operator expects of an operand. -/
inductive OperandClass
  | boolean
  | numeric
  | integral
  deriving DecidableEq

/-- How the class of operands is called. -/
def OperandClass.name : OperandClass → String
  | .boolean => "boolean"
  | .numeric => "numeric"
  | .integral => "integral"

/-- Why an expression has no value. -/
inductive EvaluationError
  | unbound (name : String)
  | typeMismatch (expected : OperandClass) (found : Ty)
  | divisionByZero
  | cast (source target : Ty)
  | unknownFunction (name : String)
  | arity (name : String) (expected found : Nat)
  deriving DecidableEq

/-- The wording of the error. -/
def EvaluationError.message : EvaluationError → String
  | .unbound name => "variable '" ++ name ++ "' has no value"
  | .typeMismatch expected found =>
    "expected " ++ expected.name ++ " operand, found " ++ found.name
  | .divisionByZero => "division by zero"
  | .cast source target => "cannot cast " ++ source.name ++ " to " ++ target.name
  | .unknownFunction name => "unknown function '" ++ name ++ "'"
  | .arity name expected found =>
    "function '" ++ name ++ "' expects " ++ toString expected ++ " argument(s), got " ++
      toString found

/-- Two numbers of one type. -/
structure Operands where
  ty : NumTy
  left : ty.Carrier
  right : ty.Carrier

namespace Value

/-! ### Operators on values -/

/-- The boolean that the value has to be. -/
def expectBool (v : Value) : Except EvaluationError Bool :=
  match v.toBool? with
  | some b => .ok b
  | none => .error (.typeMismatch .boolean v.ty)

/-- The number of a type that the value is cast to. -/
def expectCast (v : Value) (t : Ty) : Except EvaluationError t.Carrier :=
  match v.castTo? t with
  | some x => .ok x
  | none => .error (.cast v.ty t)

/-- Two values, cast to the numeric type at which they meet. -/
def operands (l r : Value) : Except EvaluationError Operands :=
  match l.ty, r.ty with
  | .bool, _ => .error (.typeMismatch .numeric .bool)
  | .num _, .bool => .error (.typeMismatch .numeric .bool)
  | .num s, .num t => do
    let x ← l.expectCast (.num (s.join t))
    let y ← r.expectCast (.num (s.join t))
    return ⟨s.join t, x, y⟩

/-- The truth value of a comparison. -/
def compare (op : Comparison) (l r : Value) : Except EvaluationError Bool := do
  let ⟨t, x, y⟩ ← operands l r
  return op.holds (t.order? x y)

/-- The value of an arithmetic operator. -/
def arithmetic (op : ArithmeticOp) (l r : Value) : Except EvaluationError Value := do
  let ⟨t, x, y⟩ ← operands l r
  match t.arithmetic? op x y with
  | some z => return ⟨.num t, z⟩
  | none => throw .divisionByZero

/-- The number with its sign changed. -/
def negate : Value → Except EvaluationError Value
  | ⟨.bool, _⟩ => .error (.typeMismatch .numeric .bool)
  | ⟨.num t, x⟩ => .ok ⟨.num t, t.neg x⟩

/-- The word that the value has to be. -/
def expectWord : Value → Except EvaluationError ((w : Width) × Word w)
  | ⟨.num (.machine (.integral w)), x⟩ => .ok ⟨w, x⟩
  | v => .error (.typeMismatch .integral v.ty)

/-- The value of a shift of a word by a word of any width, which is cut to 32 bits before it is
masked. -/
def shift (op : ShiftOp) (l r : Value) : Except EvaluationError Value := do
  let ⟨w, x⟩ ← l.expectWord
  let ⟨_, d⟩ ← r.expectWord
  let distance := Word.wrap .w32 d.toInt
  return ⟨.num (.machine (.integral w)), Word.shift op x (Word.places w distance)⟩

/-- The value has to be a word or a boolean. -/
def expectBits (v : Value) : Except EvaluationError Unit :=
  if v.ty.isIntegral || v.ty = .bool then .ok () else .error (.typeMismatch .integral v.ty)

/-- The value of a boolean operator on two booleans, or on two words, cast to the wider
one. -/
def bitwise (op : BooleanOp) (l r : Value) : Except EvaluationError Value := do
  l.expectBits
  r.expectBits
  match l, r with
  | ⟨.bool, a⟩, ⟨.bool, b⟩ => return .ofBool (op.onBool a b)
  | _, _ =>
    match ← operands l r with
    | ⟨.machine (.integral w), x, y⟩ => return ⟨.num (.machine (.integral w)), op.onBits x y⟩
    | ⟨t, _, _⟩ => throw (.typeMismatch .integral (.num t))

/-- The value of an operator on bits. -/
def bits : BitOp → Value → Value → Except EvaluationError Value
  | .bitwise op => bitwise op
  | .shift op => shift op

/-- The 64-bit floating-point number that an argument becomes. -/
def expectDouble (v : Value) : Except EvaluationError (BinaryFloat .w64) :=
  match v.toDouble? with
  | some x => .ok x
  | none => .error (.typeMismatch .numeric v.ty)

end Value

/-- The value of a function on numbers; `none` if their number is not that of the function's
arguments. -/
def Builtin.apply? : Builtin → List (BinaryFloat .w64) → Option Value
  | .unary f, [x] => some ⟨.double, f.apply x⟩
  | .binary f, [x, y] => some ⟨.double, f.apply x y⟩
  | .isNaN, [x] => some (.ofBool x.isNaN)
  | _, _ => none

/-- The value of a call. The name is looked at first, then the number of arguments, and then
the arguments from left to right. -/
def callValue (name : String) (args : List Value) : Except EvaluationError Value :=
  match Builtin.ofName? name with
  | none => .error (.unknownFunction name)
  | some f =>
    if args.length = f.arity then do
      let xs ← args.mapM Value.expectDouble
      match f.apply? xs with
      | some v => return v
      | none => throw (.arity name f.arity args.length)
    else .error (.arity name f.arity args.length)

namespace Expr

mutual

/-- The value of an expression under a valuation. -/
def evaluate (σ : Valuation) : Expr → Except EvaluationError Value
  | .const v => .ok v
  | .var x =>
    match σ.get? x with
    | some v => .ok v
    | none => .error (.unbound x.name)
  | .not e => do
    let b ← (← e.evaluate σ).expectBool
    return .ofBool (!b)
  | .neg e => do (← e.evaluate σ).negate
  | .compare op l r => do
    let x ← l.evaluate σ
    let y ← r.evaluate σ
    return .ofBool (← Value.compare op x y)
  | .arith op l r => do
    let x ← l.evaluate σ
    let y ← r.evaluate σ
    Value.arithmetic op x y
  | .connect op l r => do
    let a ← (← l.evaluate σ).expectBool
    let b ← (← r.evaluate σ).expectBool
    return .ofBool (op.apply a b)
  | .bits op l r => do
    let x ← l.evaluate σ
    let y ← r.evaluate σ
    Value.bits op x y
  | .cast target e => do
    let v ← e.evaluate σ
    return ⟨target, ← v.expectCast target⟩
  | .call name args => do callValue name (← evaluateAll σ args)

/-- The values of a list of expressions. -/
def evaluateAll (σ : Valuation) : List Expr → Except EvaluationError (List Value)
  | [] => .ok []
  | e :: es => do
    let v ← e.evaluate σ
    return v :: (← evaluateAll σ es)

end

/-- Whether a boolean expression holds under a valuation. -/
def holds (e : Expr) (σ : Valuation) : Except EvaluationError Bool := do
  (← e.evaluate σ).expectBool

end Expr

end ConstraintSearch

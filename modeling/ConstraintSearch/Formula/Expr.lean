import ConstraintSearch.BinaryFloat.Elementary
import ConstraintSearch.Formula.Valuation

/-!
# Source expressions

Expressions over typed variables. Nothing forces an expression to be well typed: operators
apply to any operands, and calls name functions that may not exist. The *declared* type of an
expression is read off its shape, and looks at the left operand only where an operator has
two.
-/

namespace ConstraintSearch

/-- The connectives of boolean expressions. -/
inductive Connective
  | boolean (op : BooleanOp)
  | iff
  | implies
  deriving DecidableEq

namespace Connective

/-- How the connective is written. -/
def symbol : Connective → String
  | .boolean .and => "&&"
  | .boolean .or => "||"
  | .boolean .xor => "^"
  | .iff => "<=>"
  | .implies => "=>"

/-- The truth value of the connective. -/
def apply : Connective → Bool → Bool → Bool
  | .boolean op, a, b => op.onBool a b
  | .iff, a, b => a == b
  | .implies, a, b => !a || b

end Connective

/-- The operators on the bits of words. -/
inductive BitOp
  | bitwise (op : BooleanOp)
  | shift (op : ShiftOp)
  deriving DecidableEq

namespace BitOp

/-- How the operator is written. -/
def symbol : BitOp → String
  | .bitwise op => op.symbol
  | .shift op => op.symbol

/-- Whether the operator is a shift. -/
def isShift : BitOp → Bool
  | .bitwise _ => false
  | .shift _ => true

end BitOp

/-- The functions that can be called. -/
inductive Builtin
  | unary (f : UnaryFunction)
  | binary (f : BinaryFunction)
  | isNaN
  deriving DecidableEq

namespace Builtin

/-- The name of the test for a NaN, the one function whose result is a boolean. -/
def isNaNName : String := "isNaN"

/-- The function of a name. -/
def ofName? (name : String) : Option Builtin :=
  match name with
  | "sin" => some (.unary .sin)
  | "cos" => some (.unary .cos)
  | "tan" => some (.unary .tan)
  | "asin" => some (.unary .asin)
  | "acos" => some (.unary .acos)
  | "atan" => some (.unary .atan)
  | "exp" => some (.unary .exp)
  | "log" => some (.unary .log)
  | "log10" => some (.unary .log10)
  | "sqrt" => some (.unary .sqrt)
  | "round" => some (.unary .round)
  | "atan2" => some (.binary .atan2)
  | "pow" => some (.binary .pow)
  | _ => if name = isNaNName then some .isNaN else none

/-- How many arguments the function takes. -/
def arity : Builtin → Nat
  | .unary _ => 1
  | .binary _ => 2
  | .isNaN => 1

end Builtin

/-- Source expressions. -/
inductive Expr
  | const (v : Value)
  | var (x : Variable)
  | not (e : Expr)
  | neg (e : Expr)
  | compare (op : Comparison) (l r : Expr)
  | arith (op : ArithmeticOp) (l r : Expr)
  | connect (op : Connective) (l r : Expr)
  | bits (op : BitOp) (l r : Expr)
  | cast (target : Ty) (e : Expr)
  | call (name : String) (args : List Expr)

namespace Expr

instance : Inhabited Expr := ⟨.const (.ofBool true)⟩

/-- The declared type of an expression. -/
def ty : Expr → Ty
  | .const v => v.ty
  | .var x => x.ty
  | .not _ => .bool
  | .neg e => e.ty
  | .compare _ _ _ => .bool
  | .arith _ l _ => l.ty
  | .connect _ _ _ => .bool
  | .bits _ l _ => l.ty
  | .cast target _ => target
  | .call name _ => if name = Builtin.isNaNName then .bool else .double

/-- The conjunction of two expressions. -/
def and (l r : Expr) : Expr :=
  .connect (.boolean .and) l r

/-- The conjunction of a list of expressions, nested to the left; that of none is true. -/
def conjunction : List Expr → Expr
  | [] => .const (.ofBool true)
  | e :: es => es.foldl and e

/-- Whether the expression is a constant machine number that is zero. -/
def isMachineZero : Expr → Bool
  | .const v => v.isMachineZero
  | _ => false

/-- An infix operator between its operands, in parentheses. -/
private def infixText (op l r : String) : String :=
  "(" ++ l ++ " " ++ op ++ " " ++ r ++ ")"

mutual

/-- The text of an expression. Infix operators and casts are in parentheses, negations are
not. -/
def text : Expr → String
  | .const v => v.text
  | .var x => x.name
  | .not e => "!" ++ e.text
  | .neg e => "-" ++ e.text
  | .compare op l r => infixText op.symbol l.text r.text
  | .arith op l r => infixText op.symbol l.text r.text
  | .connect op l r => infixText op.symbol l.text r.text
  | .bits op l r => infixText op.symbol l.text r.text
  | .cast target e => "((" ++ target.name ++ ") " ++ e.text ++ ")"
  | .call name args => name ++ "(" ++ ", ".intercalate (texts args) ++ ")"

/-- The texts of a list of expressions. -/
def texts : List Expr → List String
  | [] => []
  | e :: es => e.text :: texts es

end

end Expr

end ConstraintSearch

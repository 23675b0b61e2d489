import ConstraintSearch.Term.Basic

/-!
# Text of terms

Terms are written in prefix form with every operator in parentheses. Literals show their kind
and their number, and constants that are no booleans and no 32-bit integers end in a letter
that shows their kind.
-/

namespace ConstraintSearch

/-- The word in front of the number of a literal. -/
def Kind.literalName : Kind → String
  | .bool => "BVAR"
  | .int => "IVAR"
  | .long => "LVAR"
  | .float => "FVAR"
  | .double => "DVAR"

/-- The text of a literal. -/
def literalText (k : Kind) (id : Nat) : String :=
  k.literalName ++ "(" ++ String.ofList (Text.digits id) ++ ")"

/-- The text of a constant inside a term. -/
def constantText : (k : Kind) → k.Carrier → String
  | .bool, b => (⟨.bool, b⟩ : Scalar).text
  | .int, x => String.ofList (Word.write x)
  | .long, x => String.ofList (Word.write x) ++ "L"
  | .float, x => String.ofList (x.write .marked) ++ "f"
  | .double, x => String.ofList (x.write .marked) ++ "d"

namespace Term

/-- An operator in front of its argument, in parentheses. -/
private def unaryText (op t : String) : String :=
  "(" ++ op ++ " " ++ t ++ ")"

/-- An operator in front of its two arguments, in parentheses. -/
private def binaryText (op l r : String) : String :=
  "(" ++ op ++ " " ++ l ++ " " ++ r ++ ")"

/-- The text of a term. -/
def text : {k : Kind} → Term k → String
  | k, .const v => constantText k v
  | k, .lit id => literalText k id
  | _, .not t => unaryText "not" t.text
  | _, .logic op l r => binaryText op.name l.text r.text
  | _, .compare op l r => binaryText op.symbol l.text r.text
  | _, .arith op l r => binaryText op.symbol l.text r.text
  | _, .bitwise op l r => binaryText op.symbol l.text r.text
  | _, .shift op _ l r => binaryText op.symbol l.text r.text
  | _, .toInt t => unaryText "as-int" t.text
  | _, .toDouble t => unaryText "as-double" t.text
  | _, .apply f t => unaryText f.name t.text
  | _, .apply₂ f l r => binaryText f.name l.text r.text

end Term

end ConstraintSearch

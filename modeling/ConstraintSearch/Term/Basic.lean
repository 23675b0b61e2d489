import ConstraintSearch.BinaryFloat.Elementary
import ConstraintSearch.Scalar.Basic

/-!
# Terms of the search engine

The language in which a search engine takes its constraints. Unlike source expressions, terms
are *strictly kinded*: a term carries its kind in its type, operators take operands of one
kind, and the only ways from one numeric kind to another are the two explicit conversions, to
32-bit integers and to 64-bit floats. Unknowns are literals, which are named by numbers.
-/

namespace ConstraintSearch

/-- Whether a shift exists at a width: the one that fills with zeros to the right exists for
32-bit words only. -/
def ShiftOp.ExistsAt (op : ShiftOp) (w : Width) : Prop :=
  op = .rightZero → w = .w32

instance (op : ShiftOp) (w : Width) : Decidable (op.ExistsAt w) :=
  inferInstanceAs (Decidable (op = .rightZero → w = .w32))

/-- Terms of a kind. -/
inductive Term : Kind → Type
  /-- A constant. -/
  | const {k : Kind} (v : k.Carrier) : Term k
  /-- An unknown, named by a number. -/
  | lit {k : Kind} (id : Nat) : Term k
  /-- The negation of a boolean. -/
  | not (t : Term .bool) : Term .bool
  /-- A boolean operator. -/
  | logic (op : BooleanOp) (l r : Term .bool) : Term .bool
  /-- A comparison of two numbers. -/
  | compare {n : NumKind} (op : Comparison) (l r : Term (.num n)) : Term .bool
  /-- An arithmetic operator. -/
  | arith {n : NumKind} (op : ArithmeticOp) (l r : Term (.num n)) : Term (.num n)
  /-- A boolean operator on the bits of two words. -/
  | bitwise {w : Width} (op : BooleanOp) (l r : Term (.num (.integral w))) :
      Term (.num (.integral w))
  /-- A shift of a word. -/
  | shift {w : Width} (op : ShiftOp) (exists_at : op.ExistsAt w)
      (l r : Term (.num (.integral w))) : Term (.num (.integral w))
  /-- The conversion of a number to a 32-bit integer. -/
  | toInt {n : NumKind} (t : Term (.num n)) : Term .int
  /-- The conversion of a number to a 64-bit float. -/
  | toDouble {n : NumKind} (t : Term (.num n)) : Term .double
  /-- A function of one argument. -/
  | apply (f : UnaryFunction) (t : Term .double) : Term .double
  /-- A function of two arguments. -/
  | apply₂ (f : BinaryFunction) (l r : Term .double) : Term .double

/-- A term together with its kind. -/
structure KindedTerm where
  kind : Kind
  term : Term kind

/-- A numeric term together with its kind. -/
structure NumTerm where
  kind : NumKind
  term : Term (.num kind)

/-- Two numeric terms of one kind. -/
structure TermPair where
  kind : NumKind
  left : Term (.num kind)
  right : Term (.num kind)

namespace NumTerm

/-- A numeric term as a term of any kind. -/
def toKinded (t : NumTerm) : KindedTerm :=
  ⟨.num t.kind, t.term⟩

/-- The term as a 32-bit integer; a conversion is put in only if it is none. -/
def intoInt : NumTerm → Term .int
  | ⟨.int, t⟩ => t
  | ⟨_, t⟩ => .toInt t

/-- The term as a 64-bit float; a conversion is put in only if it is none. -/
def intoDouble : NumTerm → Term .double
  | ⟨.double, t⟩ => t
  | ⟨_, t⟩ => .toDouble t

/-- The constant minus one of a kind. -/
def minusOne (k : NumKind) : NumTerm :=
  ⟨k, .const (k.ofInt (-1))⟩

/-- Two numeric terms as a pair, if they have the same kind. -/
def pair? (l r : NumTerm) : Option TermPair :=
  if h : l.kind = r.kind then some ⟨r.kind, h ▸ l.term, r.term⟩ else none

end NumTerm

namespace TermPair

/-- The left term by itself. -/
def leftTerm (p : TermPair) : NumTerm :=
  ⟨p.kind, p.left⟩

/-- The right term by itself. -/
def rightTerm (p : TermPair) : NumTerm :=
  ⟨p.kind, p.right⟩

/-- The arithmetic term of the pair. -/
def arith (op : ArithmeticOp) (p : TermPair) : NumTerm :=
  ⟨p.kind, .arith op p.left p.right⟩

/-- The comparison of the pair. -/
def compare (op : Comparison) (p : TermPair) : Term .bool :=
  .compare op p.left p.right

end TermPair

namespace Term

/-- The occurrences of literals in a term from left to right, each with the kind at which it
occurs. -/
def occurrences : {k : Kind} → Term k → List (Nat × Kind)
  | _, .const _ => []
  | k, .lit id => [(id, k)]
  | _, .not t => t.occurrences
  | _, .logic _ l r => l.occurrences ++ r.occurrences
  | _, .compare _ l r => l.occurrences ++ r.occurrences
  | _, .arith _ l r => l.occurrences ++ r.occurrences
  | _, .bitwise _ l r => l.occurrences ++ r.occurrences
  | _, .shift _ _ l r => l.occurrences ++ r.occurrences
  | _, .toInt t => t.occurrences
  | _, .toDouble t => t.occurrences
  | _, .apply _ t => t.occurrences
  | _, .apply₂ _ l r => l.occurrences ++ r.occurrences

end Term

end ConstraintSearch

import ConstraintSearch.Lowering.Unification

/-!
# Renumbering of literals

A term with other numbers for its literals is the same term but for its unknowns. Conversions and
the unification of operands look at kinds only, so they commute with it.
-/

namespace ConstraintSearch

variable (ρ : Nat → Nat)

/-- The term with its literals renumbered. -/
def Term.rename : {k : Kind} → Term k → Term k
  | _, .const v => .const v
  | _, .lit id => .lit (ρ id)
  | _, .not t => .not t.rename
  | _, .logic op l r => .logic op l.rename r.rename
  | _, .compare op l r => .compare op l.rename r.rename
  | _, .arith op l r => .arith op l.rename r.rename
  | _, .bitwise op l r => .bitwise op l.rename r.rename
  | _, .shift op h l r => .shift op h l.rename r.rename
  | _, .toInt t => .toInt t.rename
  | _, .toDouble t => .toDouble t.rename
  | _, .apply f t => .apply f t.rename
  | _, .apply₂ f l r => .apply₂ f l.rename r.rename

def KindedTerm.rename (t : KindedTerm) : KindedTerm :=
  ⟨t.kind, t.term.rename ρ⟩

def NumTerm.rename (t : NumTerm) : NumTerm :=
  ⟨t.kind, t.term.rename ρ⟩

def TermPair.rename (p : TermPair) : TermPair :=
  ⟨p.kind, p.left.rename ρ, p.right.rename ρ⟩

namespace NumTerm

end NumTerm

end ConstraintSearch

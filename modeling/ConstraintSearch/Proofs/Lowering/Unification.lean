import ConstraintSearch.Lowering.Unification
import ConstraintSearch.Proofs.Scalar.Conversion
import ConstraintSearch.Term.Evaluation

/-!
# What unification does to operands

Unification brings two operands to one kind by the two conversions of the term language.
`NumTerm.ConvertsTo` says what such a conversion keeps: the term still has the value of the
operand, converted to the new kind, it fails where the operand fails, and the same literals
occur in it. That is all that is ever used of the terms that conversions build.
-/

namespace ConstraintSearch

/-- A term of kind `k` stands for `t` converted to that kind. -/
structure NumTerm.ConvertsTo (t : NumTerm) (k : NumKind) (u : Term (.num k)) : Prop where
  evaluate (σ : Assignment) : u.evaluate σ = t.kind.convert k <$> t.term.evaluate σ
  occurrences : u.occurrences = t.term.occurrences

/-- The kind at which two numeric kinds are unified, if there is one: the narrow kind of two
integers, and the wide one otherwise. A 32-bit float meets no integer. -/
def NumKind.unified? (k v : NumKind) : Option NumKind :=
  match k, v with
  | .integral .w32, .integral _ => some .int
  | .integral _, .integral .w32 => some .int
  | .integral _, .integral _ => some .long
  | .float, .float => some .float
  | .float, .integral _ => none
  | .integral _, .float => none
  | _, _ => some .double

namespace NumTerm

theorem convertsTo_self (t : NumTerm) : t.ConvertsTo t.kind t.term where
  evaluate σ := by
    rw [show t.kind.convert t.kind = id from funext t.kind.convert_self]
    exact (id_map _).symm
  occurrences := rfl

theorem convertsTo_toInt (t : NumTerm) : t.ConvertsTo .int (.toInt t.term) where
  evaluate σ := by rw [Term.evaluate, map_eq_pure_bind]
  occurrences := by rw [Term.occurrences]

theorem convertsTo_toDouble (t : NumTerm) : t.ConvertsTo .double (.toDouble t.term) where
  evaluate σ := by rw [Term.evaluate, map_eq_pure_bind]
  occurrences := by rw [Term.occurrences]

theorem convertsTo_intoInt (t : NumTerm) : t.ConvertsTo .int t.intoInt := by
  match t with
  | ⟨.int, t⟩ => exact convertsTo_self ⟨.int, t⟩
  | ⟨.long, t⟩ => exact convertsTo_toInt ⟨.long, t⟩
  | ⟨.real _, t⟩ => exact convertsTo_toInt ⟨_, t⟩

theorem convertsTo_intoDouble (t : NumTerm) : t.ConvertsTo .double t.intoDouble := by
  match t with
  | ⟨.double, t⟩ => exact convertsTo_self ⟨.double, t⟩
  | ⟨.float, t⟩ => exact convertsTo_toDouble ⟨.float, t⟩
  | ⟨.integral _, t⟩ => exact convertsTo_toDouble ⟨_, t⟩

/-- What unification gives: both operands, converted to the kind at which their kinds are
unified. -/
structure Unified (l r : NumTerm) (p : TermPair) : Prop where
  kind : l.kind.unified? r.kind = some p.kind
  left : l.ConvertsTo p.kind p.left
  right : r.ConvertsTo p.kind p.right

theorem unified_of_unify {l r : NumTerm} {p : TermPair} (h : l.unify r = .ok p) :
    l.Unified r p := by
  obtain ⟨k, l⟩ := l
  obtain ⟨v, r⟩ := r
  rcases k with (- | -) | (- | -) <;> rcases v with (- | -) | (- | -) <;> cases h
  all_goals
    constructor
    · rfl
    · first
      | exact convertsTo_self _
      | exact convertsTo_intoInt ⟨_, l⟩
      | exact convertsTo_intoDouble ⟨_, l⟩
    · first
      | exact convertsTo_self _
      | exact convertsTo_intoInt ⟨_, r⟩
      | exact convertsTo_intoDouble ⟨_, r⟩

/-- Numbers whose kinds can be unified are unified. -/
theorem exists_unify {l r : NumTerm} {u : NumKind} (h : l.kind.unified? r.kind = some u) :
    ∃ p, l.unify r = .ok p ∧ p.kind = u := by
  obtain ⟨p, hp⟩ : ∃ p, l.unify r = .ok p := by
    obtain ⟨k, l⟩ := l
    obtain ⟨v, r⟩ := r
    rcases k with (- | -) | (- | -) <;> rcases v with (- | -) | (- | -) <;>
      first | exact ⟨_, rfl⟩ | cases h
  refine ⟨p, hp, ?_⟩
  exact Option.some.inj ((unified_of_unify hp).kind.symm.trans h)

end NumTerm

end ConstraintSearch

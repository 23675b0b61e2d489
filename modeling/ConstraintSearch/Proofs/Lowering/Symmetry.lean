import ConstraintSearch.Proofs.Lowering.Unification
import ConstraintSearch.Proofs.Term.Evaluation

/-!
# Symmetry of unification

Which of two operands stands at the left makes no difference to how they are unified: the
conversions are found case by case from the two kinds (`NumTerm.aligned`), and the cases for the one
order are the cases for the other one, with the operands swapped. Operands that have one kind are
not converted at all, so what has been unified stays as it is when it is unified again.
-/

namespace ConstraintSearch

/-- The pair with its terms in the other order. -/
def TermPair.swap (p : TermPair) : TermPair :=
  ⟨p.kind, p.right, p.left⟩

namespace NumTerm

variable {l r : NumTerm} {p : TermPair} {e : LoweringError}

/-! ### Pairs -/

theorem pair?_eq_some_iff : l.pair? r = some p ↔ l = p.leftTerm ∧ r = p.rightTerm := by
  obtain ⟨k, l⟩ := l
  obtain ⟨v, r⟩ := r
  obtain ⟨u, pl, pr⟩ := p
  constructor
  · intro h
    unfold pair? at h
    split at h
    · next hk =>
      obtain rfl : k = v := hk
      cases h
      exact ⟨rfl, rfl⟩
    · cases h
  · rintro ⟨h, h'⟩
    cases h
    cases h'
    exact dif_pos rfl

theorem pair?_swap (h : l.pair? r = some p) : r.pair? l = some p.swap := by
  obtain ⟨rfl, rfl⟩ := pair?_eq_some_iff.1 h
  exact pair?_eq_some_iff.2 ⟨rfl, rfl⟩

theorem pair?_eq_none_comm : l.pair? r = none ↔ r.pair? l = none := by
  simp only [Option.eq_none_iff_forall_ne_some]
  exact ⟨fun h p hp ↦ h p.swap (pair?_swap hp), fun h p hp ↦ h p.swap (pair?_swap hp)⟩

/-! ### Conversions -/

/-- The conversions for the other order are the same ones. -/
theorem aligned_swap (l r : NumTerm) : r.aligned l = (l.aligned r).swap := by
  obtain ⟨(- | -) | (- | -), l⟩ := l <;> obtain ⟨(- | -) | (- | -), r⟩ := r <;> rfl

/-- Operands of one kind are not converted. -/
theorem aligned_of_kind_eq (h : l.kind = r.kind) : l.aligned r = (l, r) := by
  obtain ⟨k, l⟩ := l
  obtain ⟨v, r⟩ := r
  obtain rfl : k = v := h
  rcases k with (- | -) | (- | -) <;> rfl

/-- Of two operands one is converted at most. -/
theorem aligned_cases (l r : NumTerm) :
    l.aligned r = (l, r) ∨ l.aligned r = (l.narrowed, r) ∨ l.aligned r = (l, r.narrowed) ∨
      l.aligned r = (l.widened, r) ∨ l.aligned r = (l, r.widened) := by
  obtain ⟨(- | -) | (- | -), l⟩ := l <;> obtain ⟨(- | -) | (- | -), r⟩ := r <;> simp [aligned]

/-! ### Unification -/

theorem unify_eq_ok_iff :
    l.unify r = .ok p ↔ (l.aligned r).1.pair? (l.aligned r).2 = some p := by
  unfold unify
  dsimp only
  split
  · next q hq => rw [hq, Except.ok.injEq, Option.some.injEq]
  · next hq => simp [hq]

theorem unify_eq_error_iff :
    l.unify r = .error e ↔ (l.aligned r).1.pair? (l.aligned r).2 = none ∧
      e = .incompatibleOperands (l.aligned r).1.kind (l.aligned r).2.kind := by
  unfold unify
  dsimp only
  split
  · next q hq => simp [hq]
  · next hq => simp [hq, eq_comm]

/-- In the other order the terms of the pair are swapped. -/
theorem unify_swap (h : l.unify r = .ok p) : r.unify l = .ok p.swap := by
  rw [unify_eq_ok_iff] at h ⊢
  rw [aligned_swap]
  exact pair?_swap h

/-- In the other order the kinds that cannot be unified are swapped. -/
theorem unify_swap_error (h : l.unify r = .error e) :
    ∃ k v, e = .incompatibleOperands k v ∧ r.unify l = .error (.incompatibleOperands v k) := by
  obtain ⟨hpair, rfl⟩ := unify_eq_error_iff.1 h
  refine ⟨_, _, rfl, unify_eq_error_iff.2 ?_⟩
  rw [aligned_swap]
  exact ⟨pair?_eq_none_comm.1 hpair, rfl⟩

/-- What has been unified is not changed by unification. -/
theorem unify_parts (p : TermPair) : p.leftTerm.unify p.rightTerm = .ok p := by
  rw [unify_eq_ok_iff, aligned_of_kind_eq (l := p.leftTerm) (r := p.rightTerm) rfl]
  exact pair?_eq_some_iff.2 ⟨rfl, rfl⟩

/-! ### Values -/

/-- Under every assignment, `u` has the value of `t` converted to the kind of `u`, or it fails with
the error of `t`. -/
def Converted (t u : NumTerm) : Prop :=
  ∀ σ, match t.toKinded.evaluate σ with
    | .ok a => ∃ x, a.convert? (.num u.kind) = some x ∧
        u.toKinded.evaluate σ = .ok ⟨.num u.kind, x⟩
    | .error e => u.toKinded.evaluate σ = .error e

theorem ConvertsTo.converted {t : NumTerm} {k : NumKind} {u : Term (.num k)}
    (h : t.ConvertsTo k u) : t.Converted ⟨k, u⟩ := by
  intro σ
  have hu := h.evaluate σ
  unfold KindedTerm.evaluate toKinded
  dsimp only
  rcases ht : t.term.evaluate σ with e | x
  · rw [ht] at hu
    rw [hu]
    rfl
  · rw [ht] at hu
    rw [hu]
    exact ⟨_, rfl, rfl⟩

/-- Unification does not depend on the order of its operands, leaves alone what is unified, and
converts values. Two numbers are unified exactly if their kinds can be. Then the numbers in the
other order are unified to the same pair swapped, the pair is unified to itself, and its terms have
the values of the operands, converted to the kind of the pair, or the errors of the operands.
Otherwise the error names two kinds, and in the other order it names them swapped. -/
theorem unify_symmetric (l r : NumTerm) :
    match l.unify r with
    | .ok p => l.kind.unified? r.kind = some p.kind ∧ r.unify l = .ok p.swap ∧
        p.leftTerm.unify p.rightTerm = .ok p ∧ l.Converted p.leftTerm ∧ r.Converted p.rightTerm
    | .error e => l.kind.unified? r.kind = none ∧
        ∃ k v, e = .incompatibleOperands k v ∧ r.unify l = .error (.incompatibleOperands v k) := by
  rcases h : l.unify r with e | p
  · refine ⟨?_, unify_swap_error h⟩
    rcases hk : l.kind.unified? r.kind with - | u
    · rfl
    · obtain ⟨p, hp, -⟩ := exists_unify hk
      rw [h] at hp
      cases hp
  · have hunified := unified_of_unify h
    exact ⟨hunified.kind, unify_swap h, unify_parts p, hunified.left.converted,
      hunified.right.converted⟩

/-- A long integer next to a float becomes a wide float, and the two are not unified. -/
example (i j : Nat) :
    unify ⟨.long, .lit i⟩ ⟨.float, .lit j⟩ = .error (.incompatibleOperands .double .float) :=
  rfl

end NumTerm

end ConstraintSearch

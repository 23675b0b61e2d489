import ConstraintSearch.Formula.Valuation
import ConstraintSearch.Proofs.Lowering.Kinds
import ConstraintSearch.Proofs.Term.Evaluation

/-!
# Agreement of valuations and assignments

A valuation and an assignment agree on a variable if the valuation gives it a value of its type,
and the assignment gives the literal to which it is bound the same value. The literal then has
the kind of the variable's type, so that the kinds of terms are the ones that can be read off
expressions.
-/

namespace ConstraintSearch

/-- The valuation gives the variable a value of its type, and the assignment gives its literal
the same one. -/
def Agrees (ν : Valuation) (σ : Assignment) (s : LoweringState) (x : Variable) : Prop :=
  ∃ a : Scalar, ν.get? x = some (.ofScalar a) ∧ Ty.ofKind a.kind = x.ty ∧
    ∀ l, s.literal? x = some l → l.toTerm.evaluate σ = .ok a

section

variable {ν : Valuation} {σ : Assignment} {s s' : LoweringState} {x : Variable} {l : Literal}

theorem agrees_of_literal? {a : Scalar} (hν : ν.get? x = some (.ofScalar a))
    (hty : Ty.ofKind a.kind = x.ty) (hl : s.literal? x = some l)
    (hσ : l.toTerm.evaluate σ = .ok a) : Agrees ν σ s x := by
  refine ⟨a, hν, hty, fun l' hl' ↦ ?_⟩
  obtain rfl : l = l' := Option.some.inj (hl.symm.trans hl')
  exact hσ

theorem Agrees.before {e : Expr} {t : KindedTerm} (h : Agrees ν σ s' x) (he : Lowers s e t s') :
    Agrees ν σ s x := by
  obtain ⟨a, hx, hty, hl⟩ := h
  exact ⟨a, hx, hty, fun l hs ↦ hl l (he.literal?_mono hs)⟩

/-- The value of a variable and that of its literal are the same, and of the same kind. -/
theorem Agrees.exists_carrier (h : Agrees ν σ s x) (hl : s.literal? x = some l) :
    ∃ b : l.kind.Carrier, ν.get? x = some (.ofScalar ⟨l.kind, b⟩) ∧ Ty.ofKind l.kind = x.ty ∧
      σ.lookup l.kind l.id = .ok b := by
  obtain ⟨a, hx, hty, ha⟩ := h
  obtain ⟨b, hb, rfl⟩ := KindedTerm.evaluate_eq_ok_iff.1 (ha l hl)
  exact ⟨b, hx, hty, hb⟩

theorem respects_of_agrees {xs : List Variable} (h : ∀ x ∈ xs, Agrees ν σ s x) :
    s.Respects xs := by
  intro x hx l hl
  obtain ⟨-, -, hty, -⟩ := (h x hx).exists_carrier hl
  rw [← hty, Ty.kind?_ofKind]

theorem Agrees.operands {ν : Valuation} {σ : Assignment} {s s' : LoweringState} {e : Expr}
    {t : KindedTerm} {xs ys : List Variable} (h : ∀ x ∈ xs ++ ys, Agrees ν σ s' x)
    (he : Lowers s e t s') : (∀ x ∈ xs, Agrees ν σ s x) ∧ ∀ x ∈ ys, Agrees ν σ s' x :=
  ⟨fun x hx ↦ (h x (List.mem_append_left _ hx)).before he,
    fun x hx ↦ h x (List.mem_append_right _ hx)⟩

end

end ConstraintSearch

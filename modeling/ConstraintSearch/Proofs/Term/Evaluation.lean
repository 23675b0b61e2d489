import ConstraintSearch.Term.PathCondition
import Mathlib.Tactic.CongrExclamation

/-!
# Evaluation of terms

Evaluation is strict: a term that has a value has looked up every literal that occurs in it.
-/

namespace ConstraintSearch

/-- A sequence of two steps succeeds exactly when both do. -/
theorem bind_eq_ok_iff {ε α β : Type} {x : Except ε α} {f : α → Except ε β} {b : β} :
    x >>= f = .ok b ↔ ∃ a, x = .ok a ∧ f a = .ok b := by
  cases x with
  | error e =>
    show Except.error e = _ ↔ _
    simp
  | ok a =>
    show f a = _ ↔ _
    simp

/-- Of two operands both have values if there is a result. -/
theorem operands_of_ok {ε α α' β : Type} {x : Except ε α} {y : Except ε α'}
    {f : α → α' → Except ε β} {b : β} (h : (x >>= fun a ↦ y >>= fun c ↦ f a c) = .ok b) :
    (∃ a, x = .ok a) ∧ ∃ c, y = .ok c := by
  obtain ⟨a, ha, h⟩ := bind_eq_ok_iff.1 h
  obtain ⟨c, hc, -⟩ := bind_eq_ok_iff.1 h
  exact ⟨⟨a, ha⟩, c, hc⟩

namespace Term

variable {σ : Assignment}

/-- A second evaluation gives what the first one gave. -/
theorem bind_twice {α β : Type} {y : Except TermError α} {f : α → α → Except TermError β} :
    (y >>= fun a ↦ y >>= fun b ↦ f a b) = y >>= fun a ↦ f a a := by
  cases y <;> rfl

theorem evaluate_arith {k : NumKind} {op : ArithmeticOp} {l r : Term (.num k)} :
    (Term.arith op l r).evaluate σ = l.evaluate σ >>= fun x ↦ r.evaluate σ >>= fun y ↦
      (k.arithmetic? op x y).elim (.error .divisionByZero) .ok := by
  rw [evaluate]
  congr! 4 with x y
  cases k.arithmetic? op x y <;> rfl

theorem evaluate_arith_of_ok {k : NumKind} {op : ArithmeticOp} {l r : Term (.num k)}
    {x y z : k.Carrier} (hl : l.evaluate σ = .ok x) (hr : r.evaluate σ = .ok y)
    (hz : k.arithmetic? op x y = some z) : (Term.arith op l r).evaluate σ = .ok z := by
  rw [evaluate_arith, hl, hr]
  show (k.arithmetic? op x y).elim (Except.error TermError.divisionByZero) Except.ok = _
  rw [hz]
  rfl

/-! ### Strictness -/

/-- A term that has a value has looked up every literal in it, at the kind at which the literal
occurs. -/
theorem lookup_of_evaluate_ok {k : Kind} {t : Term k} {v : k.Carrier}
    (h : t.evaluate σ = .ok v) : ∀ o ∈ t.occurrences, ∃ a, σ.lookup o.2 o.1 = .ok a := by
  induction t with
  | const v => exact List.forall_mem_nil _
  | lit id => exact List.forall_mem_singleton.2 ⟨v, h⟩
  | not t ih =>
    obtain ⟨a, ha, -⟩ := bind_eq_ok_iff.1 h
    exact ih ha
  | logic op l r ihl ihr =>
    obtain ⟨⟨a, ha⟩, b, hb⟩ := operands_of_ok h
    exact List.forall_mem_append.2 ⟨ihl ha, ihr hb⟩
  | compare op l r ihl ihr =>
    obtain ⟨⟨a, ha⟩, b, hb⟩ := operands_of_ok h
    exact List.forall_mem_append.2 ⟨ihl ha, ihr hb⟩
  | arith op l r ihl ihr =>
    obtain ⟨⟨a, ha⟩, b, hb⟩ := operands_of_ok h
    exact List.forall_mem_append.2 ⟨ihl ha, ihr hb⟩
  | bitwise op l r ihl ihr =>
    obtain ⟨⟨a, ha⟩, b, hb⟩ := operands_of_ok h
    exact List.forall_mem_append.2 ⟨ihl ha, ihr hb⟩
  | shift op hop l r ihl ihr =>
    obtain ⟨⟨a, ha⟩, b, hb⟩ := operands_of_ok h
    exact List.forall_mem_append.2 ⟨ihl ha, ihr hb⟩
  | toInt t ih =>
    obtain ⟨a, ha, -⟩ := bind_eq_ok_iff.1 h
    exact ih ha
  | toDouble t ih =>
    obtain ⟨a, ha, -⟩ := bind_eq_ok_iff.1 h
    exact ih ha
  | apply f t ih =>
    obtain ⟨a, ha, -⟩ := bind_eq_ok_iff.1 h
    exact ih ha
  | apply₂ f l r ihl ihr =>
    obtain ⟨⟨a, ha⟩, b, hb⟩ := operands_of_ok h
    exact List.forall_mem_append.2 ⟨ihl ha, ihr hb⟩

end Term

/-- The scalar that a term gives has the kind of the term. -/
theorem KindedTerm.evaluate_eq_ok_iff {σ : Assignment} {t : KindedTerm} {a : Scalar} :
    t.evaluate σ = .ok a ↔ ∃ x, t.term.evaluate σ = .ok x ∧ ⟨t.kind, x⟩ = a := by
  rw [evaluate, bind_eq_ok_iff]
  simp only [pure, Except.pure, Except.ok.injEq]

/-- A single constraint holds if its value is true. -/
@[simp] theorem PathCondition.evaluate_singleton (σ : Assignment) (t : Term .bool) :
    (⟨[t]⟩ : PathCondition).evaluate σ = t.evaluate σ := by
  show (t.evaluate σ >>= fun b ↦ if b then .ok true else .ok false) = _
  rcases t.evaluate σ with e | (- | -) <;> rfl

end ConstraintSearch

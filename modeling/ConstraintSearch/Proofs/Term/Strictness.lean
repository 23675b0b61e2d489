import ConstraintSearch.Proofs.Term.Evaluation
import ConstraintSearch.Proofs.Term.Nodes

/-!
# Strictness of evaluation

A term has a value only if every literal in it is assigned a scalar that converts to the kind at
which it occurs: a boolean for a boolean, some number for a number. If that is so, the one thing
that can go wrong is a division of integers by zero. Conversions in a term are always of numbers,
and between numbers every conversion has a result.
-/

namespace ConstraintSearch

variable {σ : Assignment}

/-! ### Look-up -/

/-- A scalar converts to a kind if both are boolean or both are numeric. -/
theorem Scalar.exists_convert?_iff {s : Scalar} {k : Kind} :
    (∃ a, s.convert? k = some a) ↔ (s.kind = .bool ↔ k = .bool) := by
  obtain ⟨- | v, x⟩ := s <;> rcases k with - | k <;> simp [convert?]

/-- The assignment has a scalar for the literal: a boolean where it occurs as a boolean, and a
number where it occurs as a number. -/
def Assignment.Suits (σ : Assignment) (id : Nat) (k : Kind) : Prop :=
  ∃ s, σ.get? id = some s ∧ (s.kind = .bool ↔ k = .bool)

theorem Assignment.exists_lookup_iff {id : Nat} {k : Kind} :
    (∃ a, σ.lookup k id = .ok a) ↔ σ.Suits id k := by
  unfold lookup Suits
  rcases σ.get? id with - | s
  · simp
  · simp only [Option.some.injEq, exists_eq_left', ← Scalar.exists_convert?_iff]
    rcases s.convert? k with - | a <;> simp

/-! ### Failures -/

/-- Whether a term is a quotient or remainder of integers. -/
def KindedTerm.isIntegerDivision : KindedTerm → Bool
  | ⟨.num (.integral _), .arith .div _ _⟩ => true
  | ⟨.num (.integral _), .arith .rem _ _⟩ => true
  | _ => false

/-- A computation succeeds, or else it fails by a division of integers among the given terms. -/
def FailsOnlyByDivision {α : Type} (ts : List KindedTerm) (r : Except TermError α) : Prop :=
  (∃ a, r = .ok a) ∨ r = .error .divisionByZero ∧ ∃ t ∈ ts, t.isIntegerDivision = true

namespace FailsOnlyByDivision

variable {α β : Type} {ts us : List KindedTerm} {r : Except TermError α}
  {f : α → Except TermError β}

theorem ok (a : α) : FailsOnlyByDivision ts (.ok a : Except TermError α) :=
  .inl ⟨a, rfl⟩

theorem mono (h : FailsOnlyByDivision ts r) (hts : ts ⊆ us) : FailsOnlyByDivision us r := by
  rcases h with h | ⟨h, t, ht, hdiv⟩
  · exact .inl h
  · exact .inr ⟨h, t, hts ht, hdiv⟩

theorem bind (h : FailsOnlyByDivision ts r) (hf : ∀ a, FailsOnlyByDivision ts (f a)) :
    FailsOnlyByDivision ts (r >>= f) := by
  rcases h with ⟨a, rfl⟩ | ⟨rfl, ht⟩
  · exact hf a
  · exact .inr ⟨rfl, ht⟩

/-- An operator of one operand, which cannot fail itself. -/
theorem unary {t : KindedTerm} {g : α → β} (h : FailsOnlyByDivision ts r) :
    FailsOnlyByDivision (t :: ts) (r >>= fun a ↦ .ok (g a)) :=
  (h.mono (List.subset_cons_self _ _)).bind fun a ↦ .ok (g a)

/-- An operator of two operands, which may fail itself. -/
theorem binary {t : KindedTerm} {l r : Except TermError α} {g : α → α → Except TermError β}
    (hl : FailsOnlyByDivision ts l) (hr : FailsOnlyByDivision us r)
    (hg : ∀ a b, FailsOnlyByDivision [t] (g a b)) :
    FailsOnlyByDivision (t :: (ts ++ us)) (l >>= fun a ↦ r >>= fun b ↦ g a b) := by
  refine (hl.mono fun u hu ↦ ?_).bind fun a ↦ (hr.mono fun u hu ↦ ?_).bind fun b ↦
    (hg a b).mono fun u hu ↦ ?_
  · exact List.mem_cons_of_mem _ (List.mem_append_left _ hu)
  · exact List.mem_cons_of_mem _ (List.mem_append_right _ hu)
  · rw [List.mem_singleton.1 hu]
    exact List.mem_cons_self

end FailsOnlyByDivision

/-- Arithmetic has a result unless it divides integers. -/
theorem NumKind.failsOnlyByDivision_arithmetic? {k : NumKind} {op : ArithmeticOp}
    {l r : Term (.num k)} (x y : k.Carrier) :
    FailsOnlyByDivision [⟨.num k, .arith op l r⟩]
      ((k.arithmetic? op x y).elim (.error .divisionByZero) .ok) := by
  rcases hz : k.arithmetic? op x y with - | z
  · refine .inr ⟨rfl, _, List.mem_singleton_self _, ?_⟩
    cases k with
    | integral w => cases op <;> first | rfl | cases hz
    | real w => cases hz
  · exact .ok z

/-- Under an assignment with a suitable scalar for every literal in a term, its evaluation can
fail only by a division of integers in it. -/
theorem Term.failsOnlyByDivision_evaluate {k : Kind} {t : Term k}
    (h : ∀ o ∈ t.occurrences, σ.Suits o.1 o.2) :
    FailsOnlyByDivision t.nodes (t.evaluate σ) := by
  induction t with
  | const v => exact .ok v
  | @lit k id => exact .inl (Assignment.exists_lookup_iff.2 (h (id, k) (List.mem_singleton_self _)))
  | not t ih => exact (ih h).unary
  | logic op l r ihl ihr =>
    obtain ⟨hl, hr⟩ := List.forall_mem_append.1 h
    exact (ihl hl).binary (ihr hr) fun a b ↦ .ok _
  | compare op l r ihl ihr =>
    obtain ⟨hl, hr⟩ := List.forall_mem_append.1 h
    exact (ihl hl).binary (ihr hr) fun x y ↦ .ok _
  | arith op l r ihl ihr =>
    obtain ⟨hl, hr⟩ := List.forall_mem_append.1 h
    rw [evaluate_arith]
    exact (ihl hl).binary (ihr hr) NumKind.failsOnlyByDivision_arithmetic?
  | bitwise op l r ihl ihr =>
    obtain ⟨hl, hr⟩ := List.forall_mem_append.1 h
    exact (ihl hl).binary (ihr hr) fun x y ↦ .ok _
  | shift op hop l r ihl ihr =>
    obtain ⟨hl, hr⟩ := List.forall_mem_append.1 h
    exact (ihl hl).binary (ihr hr) fun x y ↦ .ok _
  | toInt t ih => exact (ih h).unary
  | toDouble t ih => exact (ih h).unary
  | apply f t ih => exact (ih h).unary
  | apply₂ f l r ihl ihr =>
    obtain ⟨hl, hr⟩ := List.forall_mem_append.1 h
    exact (ihl hl).binary (ihr hr) fun x y ↦ .ok _

/-! ### Conversions -/

/-- The value of a conversion is that of its operand, converted, and nothing has to stand in for
a result. -/
theorem Term.evaluate_toInt {n : NumKind} (t : Term (.num n)) (default : Kind.int.Carrier) :
    (Term.toInt t).evaluate σ =
      (fun s : Scalar ↦ (s.convert? .int).getD default) <$> KindedTerm.evaluate σ ⟨_, t⟩ := by
  rw [evaluate, KindedTerm.evaluate]
  cases t.evaluate σ <;> rfl

theorem Term.evaluate_toDouble {n : NumKind} (t : Term (.num n)) (default : Kind.double.Carrier) :
    (Term.toDouble t).evaluate σ =
      (fun s : Scalar ↦ (s.convert? .double).getD default) <$> KindedTerm.evaluate σ ⟨_, t⟩ := by
  rw [evaluate, KindedTerm.evaluate]
  cases t.evaluate σ <;> rfl

/-- A boolean term that has a value has a suitable scalar for each literal in it. If there is such
a scalar for each, the term has a value or divides by zero, and it has one if it does not divide
integers at all. What conversions would give for an operand that is no number does not matter. -/
theorem Term.evaluate_strict (b : Term .bool) (σ : Assignment) :
    ((∃ v, b.evaluate σ = .ok v) → ∀ id k, ⟨k, .lit id⟩ ∈ b.nodes → σ.Suits id k) ∧
    ((∀ id k, ⟨k, .lit id⟩ ∈ b.nodes → σ.Suits id k) →
      ((∃ v, b.evaluate σ = .ok v) ∨ b.evaluate σ = .error .divisionByZero) ∧
      ((∀ t ∈ b.nodes, t.isIntegerDivision = false) → ∃ v, b.evaluate σ = .ok v)) ∧
    (∀ n (t : Term (.num n)) default, (Term.toInt t).evaluate σ =
      (fun s : Scalar ↦ (s.convert? .int).getD default) <$> KindedTerm.evaluate σ ⟨_, t⟩) ∧
    ∀ n (t : Term (.num n)) default, (Term.toDouble t).evaluate σ =
      (fun s : Scalar ↦ (s.convert? .double).getD default) <$> KindedTerm.evaluate σ ⟨_, t⟩ := by
  refine ⟨fun ⟨v, hv⟩ id k hnode ↦ ?_, fun h ↦ ?_, fun n ↦ evaluate_toInt,
    fun n ↦ evaluate_toDouble⟩
  · exact Assignment.exists_lookup_iff.1
      (lookup_of_evaluate_ok hv (id, k) (mem_occurrences_iff.2 hnode))
  · have hfails : FailsOnlyByDivision b.nodes (b.evaluate σ) :=
      failsOnlyByDivision_evaluate fun o ho ↦ h o.1 o.2 (mem_occurrences_iff.1 ho)
    refine ⟨hfails.imp id And.left, fun hdiv ↦ hfails.resolve_right ?_⟩
    rintro ⟨-, t, ht, htdiv⟩
    exact Bool.false_ne_true ((hdiv t ht).symm.trans htdiv)

end ConstraintSearch

import ConstraintSearch.Proofs.Term.Nodes
import ConstraintSearch.Proofs.Term.Occurrences

/-!
# The literals of a path condition

An engine is told the literals of a path condition and searches for their scalars. That is all it
has to know of an assignment: evaluation looks up no other literal, so two assignments that agree
on the literals give the same result, or the same failure. The literals are the leaves of the
constraints that have not occurred before, from left to right.
-/

namespace ConstraintSearch

variable {σ τ : Assignment}

theorem Assignment.lookup_congr {id : Nat} (h : σ.get? id = τ.get? id) (k : Kind) :
    σ.lookup k id = τ.lookup k id := by
  rw [lookup, lookup, h]

/-- The value of a term depends only on what is assigned to the literals in it. -/
theorem Term.evaluate_congr {k : Kind} {t : Term k}
    (h : ∀ o ∈ t.occurrences, σ.get? o.1 = τ.get? o.1) : t.evaluate σ = t.evaluate τ := by
  induction t with
  | const v => rfl
  | @lit k id => exact Assignment.lookup_congr (h (id, k) (List.mem_singleton_self _)) k
  | not t ih => rw [evaluate, evaluate, ih h]
  | logic op l r ihl ihr =>
    obtain ⟨hl, hr⟩ := List.forall_mem_append.1 h
    rw [evaluate, evaluate, ihl hl, ihr hr]
  | compare op l r ihl ihr =>
    obtain ⟨hl, hr⟩ := List.forall_mem_append.1 h
    rw [evaluate, evaluate, ihl hl, ihr hr]
  | arith op l r ihl ihr =>
    obtain ⟨hl, hr⟩ := List.forall_mem_append.1 h
    rw [evaluate, evaluate, ihl hl, ihr hr]
  | bitwise op l r ihl ihr =>
    obtain ⟨hl, hr⟩ := List.forall_mem_append.1 h
    rw [evaluate, evaluate, ihl hl, ihr hr]
  | shift op hop l r ihl ihr =>
    obtain ⟨hl, hr⟩ := List.forall_mem_append.1 h
    rw [evaluate, evaluate, ihl hl, ihr hr]
  | toInt t ih => rw [evaluate, evaluate, ih h]
  | toDouble t ih => rw [evaluate, evaluate, ih h]
  | apply f t ih => rw [evaluate, evaluate, ih h]
  | apply₂ f l r ihl ihr =>
    obtain ⟨hl, hr⟩ := List.forall_mem_append.1 h
    rw [evaluate, evaluate, ihl hl, ihr hr]

namespace PathCondition

theorem evaluateAll_congr {cs : List (Term .bool)}
    (h : ∀ o ∈ cs.flatMap Term.occurrences, σ.get? o.1 = τ.get? o.1) :
    evaluateAll σ cs = evaluateAll τ cs := by
  induction cs with
  | nil => rfl
  | cons c cs ih =>
    rw [List.flatMap_cons] at h
    obtain ⟨hc, hcs⟩ := List.forall_mem_append.1 h
    rw [evaluateAll, evaluateAll, Term.evaluate_congr hc, ih hcs]

/-- The literals at the leaves of the constraints, from left to right. -/
def leaves (pc : PathCondition) : List (Nat × Kind) :=
  (pc.constraints.flatMap Term.nodes).filterMap KindedTerm.literal?

theorem mem_leaves_iff {pc : PathCondition} {id : Nat} {k : Kind} :
    (id, k) ∈ pc.leaves ↔ ∃ c ∈ pc.constraints, ⟨k, .lit id⟩ ∈ c.nodes := by
  simp [leaves, KindedTerm.literal?_eq_some_iff]

/-- The walk over the constraints finds their leaves. -/
theorem flatMap_occurrences (pc : PathCondition) :
    pc.constraints.flatMap Term.occurrences = pc.leaves := by
  rw [leaves, List.filterMap_flatMap]
  exact congrArg pc.constraints.flatMap (funext Term.occurrences_eq)

theorem literals_eq (pc : PathCondition) : pc.literals = firstOccurrences [] pc.leaves := by
  rw [literals, flatMap_occurrences]

theorem map_fst_literals (pc : PathCondition) :
    pc.literals.map Prod.fst = (pc.leaves.map Prod.fst).eraseDups := by
  rw [literals_eq, map_fst_firstOccurrences]
  simp

theorem nodup_literals (pc : PathCondition) : (pc.literals.map Prod.fst).Nodup := by
  rw [map_fst_literals]
  exact nodup_eraseDups _

theorem mem_map_fst_literals_iff {pc : PathCondition} {id : Nat} :
    id ∈ pc.literals.map Prod.fst ↔ ∃ k, (id, k) ∈ pc.leaves := by
  simp [map_fst_literals]

/-- Assignments that agree on the literals of a path condition give it the same value. -/
theorem evaluate_congr {pc : PathCondition} (h : ∀ l ∈ pc.literals, σ.get? l.1 = τ.get? l.1) :
    pc.evaluate σ = pc.evaluate τ := by
  refine evaluateAll_congr fun o ho ↦ ?_
  rw [flatMap_occurrences] at ho
  obtain ⟨l, hl, hid⟩ := List.mem_map.1 (mem_map_fst_literals_iff.2 ⟨o.2, ho⟩)
  rw [← hid]
  exact h l hl

/-- The value of a path condition depends only on what is assigned to its literals. These are the
literals that occur in its constraints, each of them once, in the order in which they occur first
and with the kind that they have there. -/
theorem evaluate_reads_literals (pc : PathCondition) :
    (∀ σ τ : Assignment, (∀ l ∈ pc.literals, σ.get? l.1 = τ.get? l.1) →
      pc.evaluate σ = pc.evaluate τ) ∧
    (pc.literals.map Prod.fst).Nodup ∧
    (∀ id, id ∈ pc.literals.map Prod.fst ↔
      ∃ c ∈ pc.constraints, ∃ k, ⟨k, .lit id⟩ ∈ c.nodes) ∧
    pc.literals.map Prod.fst = (pc.leaves.map Prod.fst).eraseDups ∧
    ∀ l ∈ pc.literals, pc.leaves.find? (fun o ↦ o.1 == l.1) = some l := by
  refine ⟨fun σ τ ↦ evaluate_congr, pc.nodup_literals, fun id ↦ ?_, pc.map_fst_literals,
    fun l hl ↦ ?_⟩
  · rw [mem_map_fst_literals_iff]
    simp only [mem_leaves_iff]
    constructor
    · rintro ⟨k, c, hc, hnode⟩
      exact ⟨c, hc, k, hnode⟩
    · rintro ⟨c, hc, k, hnode⟩
      exact ⟨k, c, hc, hnode⟩
  · rw [literals_eq] at hl
    exact (find?_of_mem_firstOccurrences hl).2

end PathCondition

end ConstraintSearch

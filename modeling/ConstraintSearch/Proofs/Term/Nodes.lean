import ConstraintSearch.Term.Basic

/-!
# Nodes of terms

The *nodes* of a term are its subterms with the term itself, from left to right. What occurs in a
term is read off its nodes: the occurrences of literals that are shown to an engine are the nodes
that are literals, in their order.
-/

namespace ConstraintSearch

namespace Term

/-- The subterms of a term, the term itself in front. -/
def nodes : {k : Kind} → Term k → List KindedTerm
  | k, .const v => [⟨k, .const v⟩]
  | k, .lit id => [⟨k, .lit id⟩]
  | _, .not t => ⟨_, .not t⟩ :: t.nodes
  | _, .logic op l r => ⟨_, .logic op l r⟩ :: (l.nodes ++ r.nodes)
  | _, .compare op l r => ⟨_, .compare op l r⟩ :: (l.nodes ++ r.nodes)
  | _, .arith op l r => ⟨_, .arith op l r⟩ :: (l.nodes ++ r.nodes)
  | _, .bitwise op l r => ⟨_, .bitwise op l r⟩ :: (l.nodes ++ r.nodes)
  | _, .shift op h l r => ⟨_, .shift op h l r⟩ :: (l.nodes ++ r.nodes)
  | _, .toInt t => ⟨_, .toInt t⟩ :: t.nodes
  | _, .toDouble t => ⟨_, .toDouble t⟩ :: t.nodes
  | _, .apply f t => ⟨_, .apply f t⟩ :: t.nodes
  | _, .apply₂ f l r => ⟨_, .apply₂ f l r⟩ :: (l.nodes ++ r.nodes)

@[simp] theorem self_mem_nodes {k : Kind} (t : Term k) : ⟨k, t⟩ ∈ t.nodes := by
  cases t <;> simp [nodes]

end Term

/-- The literal that a term is, with its kind. -/
def KindedTerm.literal? : KindedTerm → Option (Nat × Kind)
  | ⟨k, .lit id⟩ => some (id, k)
  | _ => none

theorem KindedTerm.literal?_eq_some_iff {t : KindedTerm} {id : Nat} {k : Kind} :
    t.literal? = some (id, k) ↔ t = ⟨k, .lit id⟩ := by
  constructor
  · intro h
    obtain ⟨v, t⟩ := t
    cases t <;> cases h
    rfl
  · rintro rfl
    rfl

namespace Term

private theorem operands_eq {k : Kind} {l r : Term k}
    (hl : l.occurrences = l.nodes.filterMap KindedTerm.literal?)
    (hr : r.occurrences = r.nodes.filterMap KindedTerm.literal?) :
    l.occurrences ++ r.occurrences = (l.nodes ++ r.nodes).filterMap KindedTerm.literal? := by
  rw [List.filterMap_append, hl, hr]

/-- The occurrences of literals in a term are the literals among its nodes. -/
theorem occurrences_eq {k : Kind} (t : Term k) :
    t.occurrences = t.nodes.filterMap KindedTerm.literal? := by
  induction t with
  | const v => rfl
  | lit id => rfl
  | not t ih => exact ih
  | logic op l r ihl ihr => exact operands_eq ihl ihr
  | compare op l r ihl ihr => exact operands_eq ihl ihr
  | arith op l r ihl ihr => exact operands_eq ihl ihr
  | bitwise op l r ihl ihr => exact operands_eq ihl ihr
  | shift op h l r ihl ihr => exact operands_eq ihl ihr
  | toInt t ih => exact ih
  | toDouble t ih => exact ih
  | apply f t ih => exact ih
  | apply₂ f l r ihl ihr => exact operands_eq ihl ihr

theorem mem_occurrences_iff {k v : Kind} {t : Term k} {id : Nat} :
    (id, v) ∈ t.occurrences ↔ ⟨v, .lit id⟩ ∈ t.nodes := by
  rw [occurrences_eq, List.mem_filterMap]
  simp [KindedTerm.literal?_eq_some_iff]

end Term

end ConstraintSearch

import ConstraintSearch.Proofs.Lowering.Unification
import ConstraintSearch.Proofs.Lowering.Visits

/-!
# Bindings along a lowering pass

Whatever a lowering pass is asked to lower, and whether it succeeds or fails, its state only
grows. So the invariants of growth hold of every state that can be reached. If it succeeds, the
variables of the expression have been bound in their order, and no others, and the literals of the
term are those of the variables from left to right.
-/

namespace ConstraintSearch

namespace Lower

variable {α β : Type}

/-! ### Steps that only bind -/

/-- Wherever the step is run, and whatever comes of it, the state grows. -/
def Extends (m : Lower α) : Prop :=
  ∀ s : LoweringState, s.Grows (m.run s).2

theorem extends_pure (a : α) : (pure a : Lower α).Extends :=
  fun _ ↦ .refl

theorem extends_throw (e : LoweringError) : (throw e : Lower α).Extends :=
  fun _ ↦ .refl

theorem extends_require (x : Except LoweringError α) : (require x).Extends := by
  cases x with
  | ok a => exact extends_pure a
  | error e => exact extends_throw e

theorem run_map (f : α → β) (m : Lower α) (s : LoweringState) :
    (f <$> m).run s = match m.run s with
      | (.ok a, s') => (.ok (f a), s')
      | (.error e, s') => (.error e, s') := by
  rw [map_eq_pure_bind, run_bind]
  rfl

/-- What the first step has bound is kept. -/
theorem grows_run_bind {m : Lower α} {f : α → Lower β} (hf : ∀ a, (f a).Extends)
    (s : LoweringState) : (m.run s).2.Grows ((m >>= f).run s).2 := by
  rw [run_bind]
  rcases m.run s with ⟨e | a, s'⟩
  · exact .refl
  · exact hf a s'

theorem Extends.bind {m : Lower α} {f : α → Lower β} (hm : m.Extends)
    (hf : ∀ a, (f a).Extends) : (m >>= f).Extends :=
  fun s ↦ (hm s).trans (grows_run_bind hf s)

/-- A step of which something is required, followed by another step. -/
theorem Extends.require {γ : Type} {m : Lower α} {g : α → Except LoweringError β}
    {f : β → Lower γ} (hm : m.Extends) (hf : ∀ b, (f b).Extends) :
    (m >>= fun a ↦ Lower.require (g a) >>= f).Extends :=
  hm.bind fun _ ↦ (extends_require _).bind hf

/-- A visit only adds bindings. -/
theorem Visits.extends {m : Lower α} {xs : List Variable} (hm : m.Visits xs) : m.Extends := by
  intro s
  obtain ⟨ys, -, hvisits, -⟩ := hm s
  exact hvisits.grows

end Lower

namespace Expr

open Lower

/-- Lowering only adds bindings, also where it fails. -/
theorem lower_extends (e : Expr) : e.lower.Extends :=
  e.lower_visits.extends

/-- Whether a term is a boolean is found out when it has been lowered, and binds nothing. -/
theorem lowerCondition_run_snd (e : Expr) (s : LoweringState) :
    (e.lowerCondition.run s).2 = (e.lower.run s).2 := by
  rw [lowerCondition, run_bind]
  rcases e.lower.run s with ⟨err | t, s'⟩
  · rfl
  · show ((Lower.require (expectBool t) >>= _).run s').2 = s'
    rcases expectBool t with err | b <;> rfl

end Expr

/-! ### Reachable states -/

namespace LoweringState

/-- The states that a pass can reach. It starts without bindings and is asked to lower one
expression after the other, with success or without. Between these, other passes may take
numbers from the common supply, or start it again. -/
inductive Reachable : LoweringState → Prop
  | initial (n : Nat) : Reachable ⟨[], n⟩
  | lower {s : LoweringState} (e : Expr) : s.Reachable → Reachable (e.lower.run s).2
  | renumber {s : LoweringState} (n : Nat) : s.Reachable → Reachable { s with next := n }

variable {s : LoweringState}

/-- The pass may also be asked for path conditions. -/
theorem Reachable.lowerCondition (e : Expr) (h : s.Reachable) :
    (e.lowerCondition.run s).2.Reachable := by
  rw [e.lowerCondition_run_snd]
  exact h.lower e

theorem Reachable.wellKinded (h : s.Reachable) : s.WellKinded := by
  induction h with
  | initial n => exact wellKinded_nil n
  | lower e _ ih => exact ih.grows (e.lower_extends _)
  | renumber n _ ih => exact ih

theorem Reachable.unique (h : s.Reachable) : s.Unique := by
  induction h with
  | initial n => exact unique_nil n
  | lower e _ ih => exact ih.grows (e.lower_extends _)
  | renumber n _ ih => exact ih

end LoweringState

/-! ### Derivations -/

theorem Lower.occurrences_constant (v : Value) : (constant v).term.occurrences = [] := by
  match v with
  | ⟨.bool, _⟩ => rfl
  | ⟨.num (.machine _), _⟩ => rfl
  | ⟨.num .decimal, _⟩ => rfl

namespace Lowers

variable {s s' : LoweringState} {e : Expr} {t : KindedTerm}

/-- What is bound stays bound to the same literal. -/
theorem literal?_mono (h : Lowers s e t s') {x : Variable} {l : Literal}
    (hx : s.literal? x = some l) : s'.literal? x = some l :=
  h.grows.literal?_eq hx

/-- The bound variables are those of the expression, after the ones that were bound before, in
the order in which they are met. -/
theorem boundVars (h : Lowers s e t s') :
    SameFirsts (s.bindings.map Binding.var ++ e.vars) (s'.bindings.map Binding.var) :=
  h.visits.boundVars

/-- What has been bound is a variable of the expression. -/
theorem mem_bindings (h : Lowers s e t s') :
    ∀ b ∈ s'.bindings, b ∈ s.bindings ∨ b.var ∈ e.vars := by
  intro b hb
  have hvar := h.boundVars.mem_iff.2 (List.mem_map_of_mem hb)
  exact (h.grows.mem_bindings hb).imp_right (List.mem_append.1 hvar).resolve_left

end Lowers

/-! ### Occurrences -/

namespace LoweringState

/-- What an occurrence of the variable is lowered to: the number of its literal, with the kind. -/
def occurrence? (s : LoweringState) (x : Variable) : Option (Nat × Kind) :=
  (s.literal? x).map fun l ↦ (l.id, l.kind)

/-- The occurrences of literals are those of the variables, but for repetitions. -/
def Mirrors (s : LoweringState) (xs : List Variable) (os : List (Nat × Kind)) : Prop :=
  SameFirsts (xs.map s.occurrence?) (os.map some)

/-- All of the variables are bound, and their literals occur. -/
def Covers (s : LoweringState) (xs : List Variable) (os : List (Nat × Kind)) : Prop :=
  ∀ x ∈ xs, ∃ l, s.literal? x = some l ∧ (l.id, l.kind) ∈ os

variable {s s' : LoweringState} {xs ys : List Variable} {os ps : List (Nat × Kind)}

theorem Mirrors.covers (h : s.Mirrors xs os) : s.Covers xs os := by
  intro x hx
  obtain ⟨o, ho, hxo⟩ := List.mem_map.1 (h.mem_iff.1 (List.mem_map_of_mem hx))
  obtain ⟨l, hl, rfl⟩ := Option.map_eq_some_iff.1 hxo.symm
  exact ⟨l, hl, ho⟩

/-- What occurs is the literal of one of the variables. -/
theorem Mirrors.exists_var (h : s.Mirrors xs os) {o : Nat × Kind} (ho : o ∈ os) :
    ∃ x ∈ xs, s.literal? x = some ⟨o.1, o.2⟩ := by
  obtain ⟨x, hx, hxo⟩ := List.mem_map.1 (h.mem_iff.2 (List.mem_map_of_mem ho))
  obtain ⟨l, hl, rfl⟩ := Option.map_eq_some_iff.1 hxo
  exact ⟨x, hx, hl⟩

theorem mirrors_singleton {x : Variable} {l : Literal} (h : s.literal? x = some l) :
    s.Mirrors [x] [(l.id, l.kind)] := by
  simp [Mirrors, SameFirsts, occurrence?, h]

theorem Mirrors.grows (h : s.Mirrors xs os) (hs : s.Grows s') : s'.Mirrors xs os := by
  have hmap : xs.map s'.occurrence? = xs.map s.occurrence? := by
    refine List.map_congr_left fun x hx ↦ ?_
    obtain ⟨l, hl, -⟩ := h.covers x hx
    rw [occurrence?, occurrence?, hl, hs.literal?_eq hl]
  rwa [Mirrors, hmap]

theorem Mirrors.append (h : s.Mirrors xs os) (hs : s.Grows s') (h' : s'.Mirrors ys ps) :
    s'.Mirrors (xs ++ ys) (os ++ ps) := by
  rw [Mirrors, List.map_append, List.map_append]
  exact SameFirsts.append (h.grows hs) h'

/-- The literals of an argument that is used twice. -/
theorem Mirrors.twice (h : s.Mirrors xs os) : s.Mirrors xs (os ++ os) := by
  rw [Mirrors, List.map_append]
  exact Eq.trans h (SameFirsts.append_of_subset (List.Subset.refl _)).symm

end LoweringState

theorem Expr.vars_eq_nil_of_isMachineZero {e : Expr} (h : e.isMachineZero = true) :
    e.vars = [] := by
  cases e <;> first | rfl | cases h

/-- A constant zero has no variables, so the operand that stays alone has those of both. -/
theorem Lower.mirrors_soleOperand? {s s' : LoweringState} {op : ArithmeticOp} {l r : Expr}
    {p : TermPair} (h : s.Mirrors l.vars p.left.occurrences) (hs : s.Grows s')
    (h' : s'.Mirrors r.vars p.right.occurrences) :
    s'.Mirrors (Expr.arith op l r).vars
      ((soleOperand? op l r p).getD (p.arith op)).term.occurrences := by
  unfold Expr.vars
  obtain hnone | ⟨-, ⟨hzl, hright⟩ | ⟨hzr, hleft⟩⟩ := soleOperand?_cases op l r p
  · rw [hnone]
    exact h.append hs h'
  · rw [hright, Expr.vars_eq_nil_of_isMachineZero hzl]
    exact h'
  · rw [hleft, Expr.vars_eq_nil_of_isMachineZero hzr, List.append_nil]
    exact h.grows hs

/-- The literals that occur in a term are those of the variables of its expression, from left to
right. Only the test for a NaN repeats some. -/
theorem Lowers.mirrors {s s' : LoweringState} {e : Expr} {t : KindedTerm} (h : Lowers s e t s') :
    s'.Mirrors e.vars t.term.occurrences := by
  induction h with
  | const => rw [Lower.occurrences_constant]; rfl
  | bound hx => exact LoweringState.mirrors_singleton hx
  | fresh hx => exact LoweringState.mirrors_singleton (LoweringState.literal?_extend_self hx)
  | not _ ih => exact ih
  | @neg _ _ _ n _ ih =>
    show LoweringState.Mirrors _ _ (n.term.occurrences ++ [])
    rw [List.append_nil]
    exact ih
  | compare _ hr hp ihl ihr =>
    have hp := NumTerm.unified_of_unify hp
    show LoweringState.Mirrors _ _ (_ ++ _)
    rw [hp.left.occurrences, hp.right.occurrences]
    exact ihl.append hr.grows ihr
  | arith _ hr hp ihl ihr =>
    have hp := NumTerm.unified_of_unify hp
    refine Lower.mirrors_soleOperand? ?_ hr.grows ?_
    · rw [hp.left.occurrences]
      exact ihl
    · rw [hp.right.occurrences]
      exact ihr
  | logic _ hr ihl ihr => exact ihl.append hr.grows ihr
  | bitwise _ hr ihl ihr => exact ihl.append hr.grows ihr
  | shift _ _ hr ihl ihr => exact ihl.append hr.grows ihr
  | castNone _ ih => exact ih
  | @castInt _ _ _ _ n _ _ ih =>
    rw [n.convertsTo_intoInt.occurrences]
    exact ih
  | @castDouble _ _ _ _ n _ _ ih =>
    rw [n.convertsTo_intoDouble.occurrences]
    exact ih
  | @unary _ _ _ _ _ n _ _ ih =>
    show LoweringState.Mirrors _ (_ ++ []) n.intoDouble.occurrences
    rw [List.append_nil, n.convertsTo_intoDouble.occurrences]
    exact ih
  | @binary _ _ _ _ _ _ _ lt rt _ _ hr ihl ihr =>
    show LoweringState.Mirrors _ (_ ++ (_ ++ []))
      (lt.intoDouble.occurrences ++ rt.intoDouble.occurrences)
    rw [List.append_nil, lt.convertsTo_intoDouble.occurrences, rt.convertsTo_intoDouble.occurrences]
    exact ihl.append hr.grows ihr
  | @isNaN _ _ _ _ n _ _ ih =>
    show LoweringState.Mirrors _ (_ ++ []) (n.intoDouble.occurrences ++ n.intoDouble.occurrences)
    rw [List.append_nil, n.convertsTo_intoDouble.occurrences]
    exact ih.twice

/-- The literals of all variables of an expression occur in its term. -/
theorem Lowers.covers {s s' : LoweringState} {e : Expr} {t : KindedTerm} (h : Lowers s e t s') :
    s'.Covers e.vars t.term.occurrences :=
  h.mirrors.covers

end ConstraintSearch

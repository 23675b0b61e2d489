import ConstraintSearch.Proofs.Lowering.Numbering
import ConstraintSearch.Proofs.Term.Renaming

/-!
# Lowering up to the numbers of literals

Which numbers the literals get depends on what a pass has bound before, and on how far the supply
is. Nothing else does: two runs of a pass on one expression give the same term but for the numbers
of the literals, or fail with the same error.

The two runs may find different variables bound, so they take different branches where they meet
one. They are compared by the numbers that the states give *afterwards*: whichever branch a run
takes, the literal of the variable is then the one that the state gives. `Lower.Parallel` says of
two steps that they agree whenever these numbers correspond. Since states only grow, the numbers
correspond in all states before if they do at the end.
-/

namespace ConstraintSearch

variable {ρ : Nat → Nat}

/-! ### Nodes -/

namespace Lower

theorem expectNum_rename (t : KindedTerm) :
    expectNum (t.rename ρ) = (expectNum t).map (NumTerm.rename ρ) := by
  obtain ⟨- | n, t⟩ := t <;> rfl

end Lower

/-! ### States -/

/-- The literal with another number. -/
def Literal.rename (ρ : Nat → Nat) (l : Literal) : Literal :=
  ⟨ρ l.id, l.kind⟩

namespace LoweringState

/-- Variables that are bound in both states have corresponding numbers. -/
def Corresponds (ρ : Nat → Nat) (s₁ s₂ : LoweringState) : Prop :=
  ∀ x l₁ l₂, s₁.literal? x = some l₁ → s₂.literal? x = some l₂ → ρ l₁.id = l₂.id

theorem Corresponds.before {s₁ s₁' s₂ s₂' : LoweringState} (h : Corresponds ρ s₁' s₂')
    (h₁ : s₁.Grows s₁') (h₂ : s₂.Grows s₂') : Corresponds ρ s₁ s₂ :=
  fun x _ _ hl₁ hl₂ ↦ h x _ _ (h₁.literal?_eq hl₁) (h₂.literal?_eq hl₂)

end LoweringState

/-! ### Steps -/

namespace Lower

open LoweringState

variable {α β γ : Type} {act : α → α} {act' : β → β} {act'' : γ → γ}

/-- Two steps that only bind, and that have the same result up to renumbering, or fail alike,
whenever the numbers that are given afterwards correspond. -/
structure Parallel (ρ : Nat → Nat) (act : α → α) (m₁ m₂ : Lower α) : Prop where
  extends_left : m₁.Extends
  extends_right : m₂.Extends
  result_eq : ∀ {s₁ s₂ : LoweringState}, s₁.WellKinded → s₂.WellKinded →
    Corresponds ρ (m₁.run s₁).2 (m₂.run s₂).2 → (m₂.run s₂).1 = (m₁.run s₁).1.map act

theorem parallel_require {x y : Except LoweringError α} (h : y = x.map act) :
    Parallel ρ act (Lower.require x) (Lower.require y) := by
  refine ⟨extends_require x, extends_require y, fun _ _ _ ↦ ?_⟩
  subst h
  cases x <;> rfl

/-- The second step only binds whatever the first one gives: also where the other run has failed
already, its state has to grow. -/
theorem Parallel.bind {m₁ m₂ : Lower α} {f₁ f₂ : α → Lower β} (hm : Parallel ρ act m₁ m₂)
    (h₂ : ∀ a, (f₂ a).Extends) (hf : ∀ a, Parallel ρ act' (f₁ a) (f₂ (act a))) :
    Parallel ρ act' (m₁ >>= f₁) (m₂ >>= f₂) := by
  have h₁ : ∀ a, (f₁ a).Extends := fun a ↦ (hf a).extends_left
  refine ⟨hm.extends_left.bind h₁, hm.extends_right.bind h₂, fun {s₁ s₂} hs₁ hs₂ hρ ↦ ?_⟩
  -- The numbers correspond at the end, and so they do after the first steps.
  have hresult := hm.result_eq hs₁ hs₂ (hρ.before (grows_run_bind h₁ s₁) (grows_run_bind h₂ s₂))
  have hs₁' := hs₁.grows (hm.extends_left s₁)
  have hs₂' := hs₂.grows (hm.extends_right s₂)
  rw [run_bind, run_bind] at hρ ⊢
  revert hρ hresult hs₁' hs₂'
  rcases m₁.run s₁ with ⟨e | a, t₁⟩ <;> rcases m₂.run s₂ with ⟨r₂, t₂⟩ <;>
    rintro hρ ⟨⟩ hs₁' hs₂'
  · rfl
  · exact (hf a).result_eq hs₁' hs₂' hρ

/-- Two steps of which the same is required. -/
theorem Parallel.require {m₁ m₂ : Lower α} {g : α → Except LoweringError β}
    {f₁ f₂ : β → Lower γ} (hm : Parallel ρ act m₁ m₂)
    (hg : ∀ a, g (act a) = (g a).map act') (h₂ : ∀ b, (f₂ b).Extends)
    (hf : ∀ b, Parallel ρ act'' (f₁ b) (f₂ (act' b))) :
    Parallel ρ act'' (m₁ >>= fun a ↦ Lower.require (g a) >>= f₁)
      (m₂ >>= fun a ↦ Lower.require (g a) >>= f₂) :=
  hm.bind (fun _ ↦ (extends_require _).bind h₂) fun a ↦ (parallel_require (hg a)).bind h₂ hf

/-- Two numeric operands one after the other, of which then a term is made. -/
theorem Parallel.operands {l r : Lower KindedTerm}
    {f : NumTerm → NumTerm → Except LoweringError KindedTerm}
    (hl : Parallel ρ (KindedTerm.rename ρ) l l) (hr : Parallel ρ (KindedTerm.rename ρ) r r)
    (hf : ∀ lt rt, f (lt.rename ρ) (rt.rename ρ) = (f lt rt).map (KindedTerm.rename ρ)) :
    let m := l >>= fun u ↦ Lower.require (expectNum u) >>= fun lt ↦
      r >>= fun v ↦ Lower.require (expectNum v) >>= fun rt ↦ Lower.require (f lt rt)
    Parallel ρ (KindedTerm.rename ρ) m m :=
  hl.require expectNum_rename (fun _ ↦ hr.extends_left.require fun _ ↦ extends_require _)
    fun lt ↦ hr.require expectNum_rename (fun _ ↦ extends_require _) fun rt ↦
      parallel_require (hf lt rt)

/-! ### Variables -/

variable {s : LoweringState} {x : Variable} {k : Kind}

end Lower

/-! ### Expressions -/

namespace Expr

open Lower

end Expr

/-! ### Two runs -/

namespace LoweringState

/-- The variable whose literal has the number. -/
def owner? (s : LoweringState) (id : Nat) : Option Variable :=
  (s.bindings.find? fun b ↦ b.literal.id = id).map Binding.var

/-- The number that the second state gives to the variable to which the first one has given a
number. Other numbers are left as they are. -/
def replacement (s₁ s₂ : LoweringState) (id : Nat) : Nat :=
  (((s₁.owner? id).bind s₂.literal?).map Literal.id).getD id

variable {s s₁ s₂ : LoweringState} {x : Variable} {l l₁ l₂ : Literal}

theorem Numbered.owner?_eq (hs : s.Numbered) (hx : s.literal? x = some l) :
    s.owner? l.id = some x := by
  have hmem := mem_bindings_of_literal? hx
  unfold owner?
  rcases hb : s.bindings.find? (fun b ↦ b.literal.id = l.id) with - | b
  · have hnone := List.find?_eq_none.1 hb _ hmem
    simp at hnone
  · have hid : b.literal.id = l.id := by simpa using List.find?_some hb
    have heq : b = ⟨x, l⟩ :=
      List.inj_on_of_nodup_map hs.nodup (List.mem_of_find?_eq_some hb) hmem hid
    rw [hb, heq]
    rfl

theorem Numbered.replacement_eq (hs : s₁.Numbered) (h₁ : s₁.literal? x = some l₁)
    (h₂ : s₂.literal? x = some l₂) : s₁.replacement s₂ l₁.id = l₂.id := by
  unfold replacement
  rw [hs.owner?_eq h₁, Option.bind_some, h₂]
  rfl

theorem Numbered.corresponds (hs : s₁.Numbered) : Corresponds (s₁.replacement s₂) s₁ s₂ :=
  fun _ _ _ h₁ h₂ ↦ hs.replacement_eq h₁ h₂

end LoweringState

namespace Expr

variable {s₁ s₂ s₁' s₂' : LoweringState} {e : Expr}

end Expr

namespace TwoPasses

/-! Two passes that are asked for the sum of the narrow integer `x` and the 64-bit float `y`. The
first one is new, and its supply is at 4. The second one has failed to compare `y` with the boolean
`b`, has bound both of them, and so meets `x` after `y`. -/

def x : Variable := ⟨"x", .int⟩

def y : Variable := ⟨"y", .double⟩

def b : Variable := ⟨"b", .bool⟩

def first : LoweringState := ⟨[], 4⟩

def sum : Expr := .arith .add (.var x) (.var y)

end TwoPasses

end ConstraintSearch

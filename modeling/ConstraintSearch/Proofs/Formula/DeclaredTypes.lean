import ConstraintSearch.Proofs.Formula.Typing
import ConstraintSearch.Proofs.Term.Evaluation

/-!
# Declared types

The declared type of an expression looks at the left operand only, where the evaluator lets two
operands meet. In a *homogeneous* expression the operands that meet have the same declared type.
There a declared type is the type of the value: it is the one that `Expr.valueTy?` computes, if
there is one (`Expr.ty_eq_of_valueTy?`).

Lowering leaves out a cast to the declared type of its operand. In a homogeneous expression nothing
is lost by that, as the cast does nothing in the evaluator either.
-/

namespace ConstraintSearch

/-! ### Operators on operands of one type -/

theorem Ty.join?_self_eq_some {s t : Ty} (h : s.join? s = some t) : s = t := by
  match s with
  | .bool => cases h
  | .num s =>
    rw [join?, NumTy.join_self] at h
    exact Option.some.inj h

theorem BitOp.ty?_bitwise_self {op : BooleanOp} {s t : Ty}
    (h : ty? (.bitwise op) s s = some t) : s = t := by
  match s with
  | .bool => exact Option.some.inj h
  | .num s =>
    simp only [ty?, Option.bind_eq_bind, Option.bind_eq_some_iff] at h
    obtain ⟨-, -, -, -, hjoin⟩ := h
    exact Ty.join?_self_eq_some hjoin

theorem BitOp.ty?_shift {op : ShiftOp} {s d t : Ty} (h : ty? (.shift op) s d = some t) :
    s = t := by
  simp only [ty?, Option.bind_eq_bind, Option.bind_eq_some_iff] at h
  obtain ⟨-, -, -, -, hs⟩ := h
  exact Option.some.inj hs

theorem Ty.cast?_eq_some {s target t : Ty} (h : s.cast? target = some t) : target = t := by
  obtain ⟨-, -, ht⟩ := Option.bind_eq_some_iff.1 h
  exact Option.some.inj ht

/-- The type of a call is the declared one. -/
theorem Builtin.callTy?_eq_some {name : String} {ts : List Ty} {t : Ty}
    (h : callTy? name ts = some t) : (if name = isNaNName then Ty.bool else .double) = t := by
  obtain ⟨f, hf, hargs⟩ := Option.bind_eq_some_iff.1 h
  obtain ⟨-, ht⟩ := Option.ite_none_right_eq_some.1 hargs
  rw [← ofKind_kind hf]
  exact Option.some.inj ht

namespace Expr

variable {e n : Expr} {t : Ty} {ν : Valuation} {v : Value}

/-! ### Homogeneous expressions -/

/-- The operands of an arithmetic or bitwise operator have one declared type. A shift may have a
distance of another type. -/
def HomogeneousNode : Expr → Prop
  | .arith _ l r => l.ty = r.ty
  | .bits (.bitwise _) l r => l.ty = r.ty
  | _ => True

/-- All operands that meet in the expression have the same declared type. -/
def Homogeneous (e : Expr) : Prop :=
  ∀ n ∈ e.nodes, n.HomogeneousNode

theorem Homogeneous.of_mem_nodes (h : e.Homogeneous) (hn : n ∈ e.nodes) : n.Homogeneous :=
  fun m hm ↦ h m (nodes_subset hn hm)

theorem TypedUnder.of_mem_nodes (h : e.TypedUnder ν) (hn : n ∈ e.nodes) : n.TypedUnder ν :=
  fun x hx ↦ h x (mem_vars_iff.2 (nodes_subset hn (mem_vars_iff.1 hx)))

/-- The declared type of a homogeneous expression is the type that its value can have. -/
theorem ty_eq_of_valueTy? (he : e.Homogeneous) (h : e.valueTy? = some t) : e.ty = t := by
  induction e generalizing t with
  | const v => exact Option.some.inj h
  | var x => exact Option.some.inj h
  | not e ih =>
    simp only [valueTy?, Option.bind_eq_bind, Option.bind_eq_some_iff] at h
    obtain ⟨-, -, -, -, ht⟩ := h
    exact Option.some.inj ht
  | neg e ih =>
    rw [Homogeneous, nodes, List.forall_mem_cons] at he
    simp only [valueTy?, Option.bind_eq_bind, Option.bind_eq_some_iff] at h
    obtain ⟨s, hs, -, -, ht⟩ := h
    exact (ih he.2 hs).trans (Option.some.inj ht)
  | compare op l r ihl ihr =>
    simp only [valueTy?, Option.bind_eq_bind, Option.bind_eq_some_iff] at h
    obtain ⟨-, -, -, -, -, -, ht⟩ := h
    exact Option.some.inj ht
  | arith op l r ihl ihr =>
    rw [Homogeneous, nodes, List.forall_mem_cons, List.forall_mem_append] at he
    obtain ⟨hnode, hl, hr⟩ := he
    simp only [valueTy?, Option.bind_eq_bind, Option.bind_eq_some_iff] at h
    obtain ⟨s, hs, u, hu, ht⟩ := h
    rw [← ihl hl hs, ← ihr hr hu, ← show l.ty = r.ty from hnode] at ht
    exact Ty.join?_self_eq_some ht
  | connect op l r ihl ihr =>
    simp only [valueTy?, Option.bind_eq_bind, Option.bind_eq_some_iff] at h
    obtain ⟨-, -, -, -, -, -, -, -, ht⟩ := h
    exact Option.some.inj ht
  | bits op l r ihl ihr =>
    rw [Homogeneous, nodes, List.forall_mem_cons, List.forall_mem_append] at he
    obtain ⟨hnode, hl, hr⟩ := he
    simp only [valueTy?, Option.bind_eq_bind, Option.bind_eq_some_iff] at h
    obtain ⟨s, hs, u, hu, ht⟩ := h
    rw [← ihl hl hs, ← ihr hr hu] at ht
    cases op with
    | bitwise op =>
      rw [← show l.ty = r.ty from hnode] at ht
      exact BitOp.ty?_bitwise_self ht
    | shift op => exact BitOp.ty?_shift ht
  | cast target e ih =>
    obtain ⟨s, -, ht⟩ := Option.bind_eq_some_iff.1 h
    exact Ty.cast?_eq_some ht
  | call name args ih =>
    obtain ⟨ts, -, ht⟩ := Option.bind_eq_some_iff.1 h
    exact Builtin.callTy?_eq_some ht

/-! ### Values -/

/-- The type of a value is the one that is computed. -/
theorem valueTy?_of_evaluate (hν : e.TypedUnder ν) (h : e.evaluate ν = .ok v) :
    e.valueTy? = some v.ty := by
  have hgrounded : ∀ n ∈ e.nodes, n.Grounded True ν := by
    refine fun n hn ↦ ⟨fun _ ↦ trivial, ?_⟩
    rintro x rfl
    exact hν x (mem_vars_iff.2 hn)
  have hfollows := follows_evaluate hgrounded
  rw [h] at hfollows
  rcases hty : e.valueTy? with - | t
  · rw [hty] at hfollows
    obtain ⟨err, herr⟩ := hfollows
    cases herr
  · rw [hty] at hfollows
    exact congrArg some hfollows.ty_eq.symm

theorem Homogeneous.ty_of_evaluate (he : e.Homogeneous) (hν : e.TypedUnder ν)
    (h : e.evaluate ν = .ok v) : v.ty = e.ty :=
  (ty_eq_of_valueTy? he (valueTy?_of_evaluate hν h)).symm

theorem exists_evaluate_of_evaluateAll {es : List Expr} {vs : List Value}
    (h : evaluateAll ν es = .ok vs) : ∀ e ∈ es, ∃ v, e.evaluate ν = .ok v := by
  induction es generalizing vs with
  | nil => exact List.forall_mem_nil _
  | cons e es ih =>
    rw [evaluateAll] at h
    obtain ⟨hv, us, hus⟩ := operands_of_ok h
    exact List.forall_mem_cons.2 ⟨hv, ih hus⟩

/-- Evaluation is strict: an operator has a value only if its operands do. -/
theorem exists_evaluate_operands (h : e.evaluate ν = .ok v) :
    ∀ a ∈ e.operands, ∃ u, a.evaluate ν = .ok u := by
  have pair {l r : Expr} (hpair : (∃ x, l.evaluate ν = .ok x) ∧ ∃ y, r.evaluate ν = .ok y) :
      ∀ a ∈ [l, r], ∃ u, a.evaluate ν = .ok u :=
    List.forall_mem_cons.2 ⟨hpair.1, List.forall_mem_singleton.2 hpair.2⟩
  cases e with
  | const v => exact List.forall_mem_nil _
  | var x => exact List.forall_mem_nil _
  | not e =>
    rw [evaluate] at h
    obtain ⟨u, hu, -⟩ := bind_eq_ok_iff.1 h
    exact List.forall_mem_singleton.2 ⟨u, hu⟩
  | neg e =>
    rw [evaluate] at h
    obtain ⟨u, hu, -⟩ := bind_eq_ok_iff.1 h
    exact List.forall_mem_singleton.2 ⟨u, hu⟩
  | compare op l r =>
    rw [evaluate] at h
    exact pair (operands_of_ok h)
  | arith op l r =>
    rw [evaluate] at h
    exact pair (operands_of_ok h)
  | connect op l r =>
    rw [evaluate] at h
    obtain ⟨x, hx, h⟩ := bind_eq_ok_iff.1 h
    exact pair ⟨⟨x, hx⟩, (operands_of_ok h).2⟩
  | bits op l r =>
    rw [evaluate] at h
    exact pair (operands_of_ok h)
  | cast target e =>
    rw [evaluate] at h
    obtain ⟨u, hu, -⟩ := bind_eq_ok_iff.1 h
    exact List.forall_mem_singleton.2 ⟨u, hu⟩
  | call name args =>
    rw [evaluate] at h
    obtain ⟨vs, hvs, -⟩ := bind_eq_ok_iff.1 h
    exact exists_evaluate_of_evaluateAll hvs

theorem exists_evaluate_of_mem_nodes (h : e.evaluate ν = .ok v) (hn : n ∈ e.nodes) :
    ∃ u, n.evaluate ν = .ok u := by
  induction e using induction_operands generalizing v with
  | node e ih =>
    obtain rfl | ⟨a, ha, hna⟩ := mem_nodes_iff.1 hn
    · exact ⟨v, h⟩
    · obtain ⟨u, hu⟩ := exists_evaluate_operands h a ha
      exact ih a ha hu hna

/-- A cast to the type that the values of the operand have does nothing. -/
theorem evaluate_cast_ty (h : ∀ v, e.evaluate ν = .ok v → v.ty = e.ty) :
    (Expr.cast e.ty e).evaluate ν = e.evaluate ν := by
  rw [evaluate]
  rcases hv : e.evaluate ν with err | v
  · rfl
  · rw [← h v hv]
    exact v.cast_self

/-- The declared types of a homogeneous expression are those of the values. Let a valuation give
its variables values of their types. Then every subexpression that has a value has one of its
declared type, and if the expression itself has a value then all of them have. A cast of a
subexpression to its declared type is left out by lowering, and it is the identity of the
evaluator. -/
theorem evaluate_declaredTy (e : Expr) (ν : Valuation) (he : e.Homogeneous)
    (hν : e.TypedUnder ν) :
    (∀ n ∈ e.nodes, ∀ v, n.evaluate ν = .ok v → v.ty = n.ty) ∧
      (∀ v, e.evaluate ν = .ok v → ∀ n ∈ e.nodes, ∃ u, n.evaluate ν = .ok u ∧ u.ty = n.ty) ∧
      ∀ n ∈ e.nodes, (Expr.cast n.ty n).lower = n.lower ∧
        (Expr.cast n.ty n).evaluate ν = n.evaluate ν := by
  have hty : ∀ n ∈ e.nodes, ∀ v, n.evaluate ν = .ok v → v.ty = n.ty :=
    fun n hn v hv ↦ (he.of_mem_nodes hn).ty_of_evaluate (hν.of_mem_nodes hn) hv
  refine ⟨hty, fun v hv n hn ↦ ?_, fun n hn ↦ ⟨lower_cast_self, evaluate_cast_ty (hty n hn)⟩⟩
  obtain ⟨u, hu⟩ := exists_evaluate_of_mem_nodes hv hn
  exact ⟨u, hu, hty n hn u hu⟩

end Expr

namespace ShiftedProduct

/-! The shift `(n * (long) 2.5) << i` of a wide integer by a narrow one, with a decimal under the
cast. -/

def n : Variable := ⟨"n", .long⟩

def i : Variable := ⟨"i", .int⟩

def product : Expr :=
  .arith .mul (.var n) (.cast .long (.const ⟨.decimal, ⟨25, 1⟩⟩))

def shifted : Expr :=
  .bits (.shift .left) product (.var i)

def valuation : Valuation :=
  ⟨[(n, .ofScalar ⟨.long, 3#64⟩), (i, .ofScalar ⟨.int, 33#32⟩)]⟩

theorem homogeneous_shifted : shifted.Homogeneous := by
  intro m hm
  simp only [shifted, product, Expr.nodes, List.cons_append, List.nil_append, List.mem_cons,
    List.not_mem_nil, or_false] at hm
  rcases hm with rfl | rfl | rfl | rfl | rfl | rfl <;> first | rfl | trivial

theorem typedUnder_shifted : shifted.TypedUnder valuation := by
  intro x hx
  simp only [shifted, product, Expr.vars, List.nil_append, List.cons_append, List.append_nil,
    List.mem_cons, List.not_mem_nil, or_false] at hx
  rcases hx with rfl | rfl
  · exact ⟨.ofScalar ⟨.long, 3#64⟩, rfl, rfl⟩
  · exact ⟨.ofScalar ⟨.int, 33#32⟩, rfl, rfl⟩

theorem evaluate_shifted :
    shifted.evaluate valuation = .ok (.ofScalar ⟨.long, 0xc00000000#64⟩) :=
  rfl

/-- The shift has a value of the declared type, and casting the product to its declared type
changes nothing. -/
theorem evaluate_declaredTy_shifted :
    (∃ v, shifted.evaluate valuation = .ok v ∧ v.ty = shifted.ty) ∧
      (Expr.cast .long product).evaluate valuation = product.evaluate valuation := by
  obtain ⟨-, hall, hcast⟩ :=
    Expr.evaluate_declaredTy shifted valuation homogeneous_shifted typedUnder_shifted
  exact ⟨hall _ evaluate_shifted shifted List.mem_cons_self,
    (hcast product (List.mem_cons_of_mem _ List.mem_cons_self)).2⟩

end ShiftedProduct

end ConstraintSearch

import ConstraintSearch.Proofs.Lowering.Safety

/-!
# The type of the value

Whether an expression can have a value at all, and of which type, can be read off it: operators ask
for operands of certain types, and these determine the type of the result. `Expr.valueTy?` computes
it. Unlike the declared type it looks at all operands, and there is none where an operand has a type
that its operator does not take.

This computation and the evaluation go through an expression in the same way. `Follows` says of a
step of one and a step of the other what the theorem says of the whole: where there is no type, the
evaluation fails; and where there is one, the value has it, or there is a division by zero, or the
cast of a number from or to the decimals. It is kept by sequencing (`Follows.bind`), so it is enough
to look at the operators.
-/

namespace ConstraintSearch

variable {dec : Prop}

/-! ### Types of values -/

/-- The type of a cast. Booleans and numbers are not cast to each other. -/
def Ty.cast? (source target : Ty) : Option Ty := do
  guard (target = source ∨ source.isNumeric ∧ target.isNumeric)
  return target

/-- The type of an operator on bits. -/
def BitOp.ty? : BitOp → Ty → Ty → Option Ty
  | .bitwise _, .bool, .bool => some .bool
  | .bitwise _, s, t => do
    guard s.isIntegral
    guard t.isIntegral
    s.join? t
  | .shift _, s, t => do
    guard s.isIntegral
    guard t.isIntegral
    return s

/-- The type of a call of a function with arguments of some types. -/
def Builtin.callTy? (name : String) (args : List Ty) : Option Ty := do
  let f ← ofName? name
  if args.length = f.arity ∧ ∀ t ∈ args, t.isNumeric then some (Ty.ofKind f.kind) else none

namespace Expr

mutual

/-- The type of the value of an expression, if its operands have the types that its operators take
and its functions have the arguments that they take. -/
def valueTy? : Expr → Option Ty
  | .const v => some v.ty
  | .var x => some x.ty
  | .not e => do
    guard ((← e.valueTy?) = .bool)
    return .bool
  | .neg e => do
    let t ← e.valueTy?
    guard t.isNumeric
    return t
  | .compare _ l r => do
    let s ← l.valueTy?
    let t ← r.valueTy?
    let _ ← s.join? t
    return .bool
  | .arith _ l r => do
    let s ← l.valueTy?
    let t ← r.valueTy?
    s.join? t
  | .connect _ l r => do
    guard ((← l.valueTy?) = .bool)
    guard ((← r.valueTy?) = .bool)
    return .bool
  | .bits op l r => do
    let s ← l.valueTy?
    let t ← r.valueTy?
    op.ty? s t
  | .cast target e => do (← e.valueTy?).cast? target
  | .call name args => do Builtin.callTy? name (← valueTys? args)

/-- The types of the values of a list of expressions. -/
def valueTys? : List Expr → Option (List Ty)
  | [] => some []
  | e :: es => do
    let t ← e.valueTy?
    return t :: (← valueTys? es)

end

end Expr

/-! ### Evaluation along types -/

/-- The step of the evaluation is as the computation of types has it: it fails if there is no type,
and otherwise it is safe, and its result is related to the type. -/
def Follows (dec : Prop) {α β : Type} (R : α → β → Prop) :
    Option β → Except EvaluationError α → Prop
  | none, x => ∃ err, x = .error err
  | some t, x => Safe dec (fun a ↦ R a t) x

namespace Follows

variable {α α' β β' : Type} {R : α → β → Prop} {R' : α' → β' → Prop}
  {t? : Option β} {x : Except EvaluationError α}

theorem pure {a : α} {t : β} (h : R a t) : Follows dec R (pure t) (pure a) :=
  h

theorem bind {f : α → Except EvaluationError α'} {g : β → Option β'} (hx : Follows dec R t? x)
    (hf : ∀ a t, R a t → Follows dec R' (g t) (f a)) : Follows dec R' (t? >>= g) (x >>= f) := by
  rcases t? with - | t
  · obtain ⟨err, rfl⟩ := hx
    exact ⟨err, rfl⟩
  · rcases x with err | a
    · show Follows dec R' (g t) (.error err)
      rcases g t with - | t'
      · exact ⟨err, rfl⟩
      · exact hx
    · exact hf a t hx

/-- A step that checks something and has no type of its own. -/
theorem of_guard {p : Prop} [Decidable p] {R : α → Unit → Prop}
    (hpos : p → Safe dec (fun a ↦ R a ()) x) (hneg : ¬ p → ∃ err, x = .error err) :
    Follows dec R (guard p) x := by
  by_cases hp : p
  · rw [guard, if_pos hp]
    exact hpos hp
  · rw [guard, if_neg hp]
    exact hneg hp

end Follows

namespace Value

variable {a b : Value} {s t : Ty}

/-- The value is of the type, which is that of the decimals only if `dec` holds. -/
structure HasTy (dec : Prop) (v : Value) (t : Ty) : Prop where
  ty_eq : v.ty = t
  decimal : t = .decimal → dec

theorem HasTy.ofBool (c : Bool) : (Value.ofBool c).HasTy dec .bool :=
  ⟨rfl, nofun⟩

/-! ### Operators -/

theorem follows_expectBool (ha : a.HasTy dec s) :
    Follows dec (fun _ _ ↦ True) (guard (s = .bool)) a.expectBool := by
  obtain ⟨s, x⟩ := a
  obtain ⟨rfl, -⟩ := ha
  cases s with
  | bool => exact .of_guard (fun _ ↦ trivial) fun h ↦ absurd rfl h
  | num s => exact .of_guard (fun h ↦ nomatch h) fun _ ↦ ⟨_, rfl⟩

theorem follows_negate (ha : a.HasTy dec s) :
    Follows dec (HasTy dec) (do guard s.isNumeric; return s) a.negate := by
  obtain ⟨s, x⟩ := a
  obtain ⟨rfl, hdec⟩ := ha
  cases s with
  | bool => exact ⟨_, rfl⟩
  | num s => exact ⟨rfl, hdec⟩

/-- Two numbers meet at a numeric type. -/
theorem follows_operands (ha : a.HasTy dec s) (hb : b.HasTy dec t) :
    Follows dec (fun o u ↦ Ty.num o.ty = u ∧ (u = .decimal → dec)) (s.join? t) (operands a b) := by
  obtain ⟨s, x⟩ := a
  obtain ⟨t, y⟩ := b
  obtain ⟨rfl, hs⟩ := ha
  obtain ⟨rfl, ht⟩ := hb
  match s, t with
  | .bool, _ => exact ⟨_, rfl⟩
  | .num _, .bool => exact ⟨_, rfl⟩
  | .num s, .num t =>
    have hdec : s = .decimal ∨ t = .decimal → dec := by
      rintro (rfl | rfl)
      · exact hs rfl
      · exact ht rfl
    refine (safe_operands x y hdec).imp fun o ho ↦ ⟨congrArg Ty.num ho, fun hu ↦ hdec ?_⟩
    rw [← Ty.num.inj hu]
    exact (NumTy.join_eq s t).imp Eq.symm Eq.symm

theorem follows_compare (op : Comparison) (ha : a.HasTy dec s) (hb : b.HasTy dec t) :
    Follows dec (HasTy dec) (do let _ ← s.join? t; return .bool)
      (do return .ofBool (← compare op a b)) := by
  rw [compare, bind_assoc]
  exact (follows_operands ha hb).bind fun o u _ ↦ .pure (.ofBool _)

theorem follows_arithmetic (op : ArithmeticOp) (ha : a.HasTy dec s) (hb : b.HasTy dec t) :
    Follows dec (HasTy dec) (s.join? t) (arithmetic op a b) := by
  rw [arithmetic, ← bind_pure (s.join? t)]
  refine (follows_operands ha hb).bind ?_
  rintro ⟨m, x, y⟩ _ ⟨rfl, hdec⟩
  dsimp only
  split
  · exact .pure ⟨rfl, hdec⟩
  · exact .inl rfl

theorem follows_expectWord (ha : a.HasTy dec s) :
    Follows dec (fun w _ ↦ s = .num (.machine (.integral w.1))) (guard s.isIntegral)
      a.expectWord := by
  obtain ⟨s, x⟩ := a
  obtain ⟨rfl, -⟩ := ha
  match s with
  | .num (.machine (.integral w)) => exact .of_guard (fun _ ↦ rfl) fun h ↦ absurd rfl h
  | .bool => exact ⟨_, rfl⟩
  | .num (.machine (.real _)) => exact ⟨_, rfl⟩
  | .decimal => exact ⟨_, rfl⟩

theorem follows_shift (op : ShiftOp) (ha : a.HasTy dec s) (hb : b.HasTy dec t) :
    Follows dec (HasTy dec) (BitOp.ty? (.shift op) s t) (shift op a b) :=
  (follows_expectWord ha).bind fun _ _ hw ↦ (follows_expectWord hb).bind fun _ _ _ ↦
    .pure ⟨hw.symm, ha.decimal⟩

theorem follows_bitwise (op : BooleanOp) (ha : a.HasTy dec s) (hb : b.HasTy dec t) :
    Follows dec (HasTy dec) (BitOp.ty? (.bitwise op) s t) (bitwise op a b) := by
  obtain ⟨s, x⟩ := a
  obtain ⟨t, y⟩ := b
  obtain ⟨rfl, -⟩ := ha
  obtain ⟨rfl, -⟩ := hb
  match s, t with
  | .bool, .bool => exact .ofBool _
  | .num (.machine (.integral v)), .num (.machine (.integral w)) =>
    obtain ⟨u, hu, -⟩ := NumKind.exists_meetAt_words v w
    show Safe dec _ _
    refine .of_eq_ok (bitwise_ofScalar hu x y) ⟨congrArg Ty.num hu.join.symm, ?_⟩
    rw [hu.join]
    exact nofun
  -- A boolean and a word pass both checks, and are refused because they do not meet.
  | .bool, .num (.machine (.integral _)) => exact ⟨_, rfl⟩
  | .bool, .num (.machine (.real _)) => exact ⟨_, rfl⟩
  | .bool, .decimal => exact ⟨_, rfl⟩
  | .num (.machine (.integral _)), .bool => exact ⟨_, rfl⟩
  | .num (.machine (.integral _)), .num (.machine (.real _)) => exact ⟨_, rfl⟩
  | .num (.machine (.integral _)), .decimal => exact ⟨_, rfl⟩
  | .num (.machine (.real _)), _ => exact ⟨_, rfl⟩
  | .decimal, _ => exact ⟨_, rfl⟩

theorem follows_bits (op : BitOp) (ha : a.HasTy dec s) (hb : b.HasTy dec t) :
    Follows dec (HasTy dec) (op.ty? s t) (bits op a b) := by
  cases op with
  | bitwise op => exact follows_bitwise op ha hb
  | shift op => exact follows_shift op ha hb

/-- A cast goes from numbers to numbers, or does nothing. -/
theorem follows_cast {target : Ty} (ha : a.HasTy dec s) (hdec : target = .decimal → dec) :
    Follows dec (HasTy dec) (s.cast? target)
      (do return (⟨target, ← a.expectCast target⟩ : Value)) := by
  refine Follows.bind (R := fun _ _ ↦ True) ?_ fun y _ _ ↦ .pure ⟨rfl, hdec⟩
  obtain ⟨s, x⟩ := a
  obtain ⟨rfl, hs⟩ := ha
  match s, target with
  | .bool, .bool => exact .of_guard (fun _ ↦ trivial) fun h ↦ absurd (.inl rfl) h
  | .num s, .num t =>
    refine .of_guard (fun _ ↦ safe_expectCast x ?_) fun h ↦ absurd (.inr ⟨rfl, rfl⟩) h
    rintro (rfl | rfl)
    · exact hs rfl
    · exact hdec rfl
  | .bool, .num _ => exact .of_guard (by simp [Ty.isNumeric]) fun _ ↦ ⟨_, rfl⟩
  | .num _, .bool => exact .of_guard (by simp [Ty.isNumeric]) fun _ ↦ ⟨_, rfl⟩

/-! ### Calls -/

theorem exists_error_expectDoubles {vs : List Value} (h : ∃ v ∈ vs, v.ty.isNumeric = false) :
    ∃ err, vs.mapM expectDouble = .error err := by
  induction vs with
  | nil => simp at h
  | cons v vs ih =>
    rw [List.mapM_cons]
    obtain ⟨- | s, x⟩ := v
    · exact ⟨_, rfl⟩
    · obtain ⟨y, hy⟩ := exists_expectDouble x
      obtain ⟨err, herr⟩ := ih (by simpa [Ty.isNumeric] using h)
      exact ⟨err, by rw [hy, herr]; rfl⟩

/-- A function has no value at other arguments. -/
theorem exists_error_callValue {name : String} {f : Builtin} {vs : List Value}
    (hf : Builtin.ofName? name = some f)
    (h : vs.length = f.arity → ∃ v ∈ vs, v.ty.isNumeric = false) :
    ∃ err, callValue name vs = .error err := by
  unfold callValue
  rw [hf]
  dsimp only
  split
  · next hn =>
    obtain ⟨err, herr⟩ := exists_error_expectDoubles (h hn)
    exact ⟨err, by rw [herr]; rfl⟩
  · exact ⟨_, rfl⟩

theorem follows_callValue (name : String) (vs : List Value) :
    Follows dec (HasTy dec) (Builtin.callTy? name (vs.map Value.ty)) (callValue name vs) := by
  rcases hf : Builtin.ofName? name with - | f
  · rw [Builtin.callTy?, hf, callValue, hf]
    exact ⟨_, rfl⟩
  · have hcall : Builtin.callTy? name (vs.map Value.ty) =
        if vs.length = f.arity ∧ ∀ v ∈ vs, v.ty.isNumeric = true then some (Ty.ofKind f.kind)
        else none := by
      simp [Builtin.callTy?, hf]
    rw [hcall]
    split
    · next h =>
      obtain ⟨c, hc, hty⟩ := exists_callValue hf h.1 h.2
      rw [hc]
      refine .pure ⟨hty, fun hdec ↦ ?_⟩
      cases f <;> cases hdec
    · next h => exact exists_error_callValue hf fun hn ↦ by simpa [hn] using h

end Value

namespace Expr

variable {e : Expr} {ν : Valuation}

/-! ### Expressions -/

/-- Decimals occur at the node itself: it is a decimal constant, a variable of the decimals, or a
cast to the decimals. -/
def DecimalNode : Expr → Prop
  | .const v => v.ty = .decimal
  | .var x => x.ty = .decimal
  | .cast target _ => target = .decimal
  | _ => False

/-- Decimals occur in the expression. -/
def MentionsDecimal (e : Expr) : Prop :=
  ∃ n ∈ e.nodes, n.DecimalNode

/-- The premises at a node: decimals occur only if `dec` holds, and a variable has a value of its
type. -/
structure Grounded (dec : Prop) (ν : Valuation) (n : Expr) : Prop where
  decimal : n.DecimalNode → dec
  value : ∀ x, n = .var x → ∃ v, ν.get? x = some v ∧ v.ty = x.ty

theorem follows_evaluateAll {es : List Expr}
    (h : ∀ e ∈ es, Follows dec (Value.HasTy dec) e.valueTy? (e.evaluate ν)) :
    Follows dec (fun vs ts ↦ vs.map Value.ty = ts) (valueTys? es) (evaluateAll ν es) := by
  induction es with
  | nil => exact .pure rfl
  | cons e es ih =>
    rw [List.forall_mem_cons] at h
    rw [valueTys?, evaluateAll]
    refine h.1.bind fun v t hv ↦ (ih h.2).bind fun vs ts hvs ↦ .pure ?_
    rw [List.map_cons, hv.ty_eq, hvs]

/-- The evaluation of an expression does what its type tells. -/
theorem follows_evaluate (h : ∀ n ∈ e.nodes, n.Grounded dec ν) :
    Follows dec (Value.HasTy dec) e.valueTy? (e.evaluate ν) := by
  induction e with
  | const v =>
    have hv := h _ (self_mem_nodes _)
    exact .pure ⟨rfl, hv.decimal⟩
  | var x =>
    have hx := h _ (self_mem_nodes _)
    obtain ⟨v, hget, hty⟩ := hx.value x rfl
    rw [valueTy?, evaluate, hget]
    exact .pure ⟨hty, hx.decimal⟩
  | not e ih =>
    rw [nodes, List.forall_mem_cons] at h
    rw [valueTy?, evaluate]
    exact (ih h.2).bind fun a s ha ↦ (Value.follows_expectBool ha).bind fun c _ _ ↦
      .pure (.ofBool _)
  | neg e ih =>
    rw [nodes, List.forall_mem_cons] at h
    rw [valueTy?, evaluate]
    exact (ih h.2).bind fun a s ha ↦ Value.follows_negate ha
  | compare op l r ihl ihr =>
    rw [nodes, List.forall_mem_cons, List.forall_mem_append] at h
    obtain ⟨-, hl, hr⟩ := h
    rw [valueTy?, evaluate]
    exact (ihl hl).bind fun a s ha ↦ (ihr hr).bind fun b t hb ↦ Value.follows_compare op ha hb
  | arith op l r ihl ihr =>
    rw [nodes, List.forall_mem_cons, List.forall_mem_append] at h
    obtain ⟨-, hl, hr⟩ := h
    rw [valueTy?, evaluate]
    exact (ihl hl).bind fun a s ha ↦ (ihr hr).bind fun b t hb ↦ Value.follows_arithmetic op ha hb
  | connect op l r ihl ihr =>
    rw [nodes, List.forall_mem_cons, List.forall_mem_append] at h
    obtain ⟨-, hl, hr⟩ := h
    rw [valueTy?, evaluate]
    exact (ihl hl).bind fun a s ha ↦ (Value.follows_expectBool ha).bind fun c _ _ ↦
      (ihr hr).bind fun b t hb ↦ (Value.follows_expectBool hb).bind fun d _ _ ↦ .pure (.ofBool _)
  | bits op l r ihl ihr =>
    rw [nodes, List.forall_mem_cons, List.forall_mem_append] at h
    obtain ⟨-, hl, hr⟩ := h
    rw [valueTy?, evaluate]
    exact (ihl hl).bind fun a s ha ↦ (ihr hr).bind fun b t hb ↦ Value.follows_bits op ha hb
  | cast target e ih =>
    rw [nodes, List.forall_mem_cons] at h
    rw [valueTy?, evaluate]
    exact (ih h.2).bind fun a s ha ↦ Value.follows_cast ha h.1.decimal
  | call name args ih =>
    rw [nodes, List.forall_mem_cons] at h
    have hargs : ∀ e ∈ args, Follows dec (Value.HasTy dec) e.valueTy? (e.evaluate ν) :=
      fun e he ↦ ih e he fun n hn ↦ h.2 n (mem_nodesAll.2 ⟨e, he, hn⟩)
    rw [valueTy?, evaluate]
    refine (follows_evaluateAll hargs).bind ?_
    rintro vs _ rfl
    exact Value.follows_callValue name vs

/-- The types of an expression are exact. Let a valuation give its variables values of their types.
If the expression has no type then its evaluation fails. If it has one, then the evaluation gives a
value of this type, or divides by zero, or fails to cast, and the latter only if there are decimals
among the constants, the variables or the targets of casts. -/
theorem evaluate_valueTy (e : Expr) (ν : Valuation) (hν : e.TypedUnder ν) :
    (e.valueTy? = none → ∃ err, e.evaluate ν = .error err) ∧
      ∀ t, e.valueTy? = some t →
        (∃ v, e.evaluate ν = .ok v ∧ v.ty = t) ∨ e.evaluate ν = .error .divisionByZero ∨
          e.MentionsDecimal ∧ ∃ source target, e.evaluate ν = .error (.cast source target) := by
  have hgrounded : ∀ n ∈ e.nodes, n.Grounded e.MentionsDecimal ν := by
    refine fun n hn ↦ ⟨fun hdec ↦ ⟨n, hn, hdec⟩, ?_⟩
    rintro x rfl
    exact hν x (mem_vars_iff.2 hn)
  have hfollows := follows_evaluate hgrounded
  constructor
  · intro hnone
    rwa [hnone] at hfollows
  · intro t ht
    rw [ht] at hfollows
    rcases hval : e.evaluate ν with err | v
    · rw [hval] at hfollows
      obtain rfl | ⟨hdec, source, target, rfl⟩ := hfollows
      · exact .inr (.inl rfl)
      · exact .inr (.inr ⟨hdec, source, target, rfl⟩)
    · rw [hval] at hfollows
      exact .inl ⟨v, rfl, hfollows.ty_eq⟩

end Expr

namespace DecimalSum

/-- Floats are not shifted, so this has no type. -/
def shiftedFloat : Expr := .bits (.shift .left) (.var d) (.var i)

def shiftedSum : Expr := .bits (.shift .left) castSum (.const ⟨.long, 2⟩)

theorem evaluate_valueTy_sums :
    (∃ err, shiftedFloat.evaluate (valuation 3 .nan) = .error err) ∧
      (∃ v, shiftedSum.evaluate (valuation 3 .nan) = .ok v ∧ v.ty = .int) ∧
      sum.evaluate (valuation 3 .nan) = .error (.cast .double .decimal) ∧ sum.MentionsDecimal := by
  have hfloat : shiftedFloat.TypedUnder (valuation 3 .nan) := fun x hx ↦
    typedUnder 3 .nan x (by simpa [shiftedFloat, Expr.vars, or_comm] using hx)
  have hshift : shiftedSum.TypedUnder (valuation 3 .nan) := fun x hx ↦
    typedUnder 3 .nan x (by simpa [shiftedSum, castSum, Expr.vars] using hx)
  have hsum : sum.TypedUnder (valuation 3 .nan) := fun x hx ↦
    typedUnder 3 .nan x (.inr (by simpa [sum, Expr.vars] using hx))
  have hcast : sum.evaluate (valuation 3 .nan) = .error (.cast .double .decimal) := rfl
  have hok : shiftedSum.evaluate (valuation 3 .nan) = .ok ⟨.int, 0⟩ := rfl
  refine ⟨(Expr.evaluate_valueTy shiftedFloat _ hfloat).1 rfl, ?_, hcast, ?_⟩
  · obtain hval | hzero | ⟨-, _, _, herr⟩ := (Expr.evaluate_valueTy shiftedSum _ hshift).2 _ rfl
    · exact hval
    · rw [hok] at hzero
      cases hzero
    · rw [hok] at herr
      cases herr
  · obtain ⟨v, hval, -⟩ | hzero | ⟨hdec, -⟩ := (Expr.evaluate_valueTy sum _ hsum).2 _ rfl
    · cases hcast.symm.trans hval
    · cases hcast.symm.trans hzero
    · exact hdec

end DecimalSum

end ConstraintSearch

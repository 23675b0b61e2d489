import ConstraintSearch.Formula.Evaluation
import ConstraintSearch.Proofs.Lowering.Unification

/-!
# Source operators on scalars

What the operators of source expressions make of values that are scalars. An operator on two
numbers casts them to the type at which they meet. Unless two integers of different widths are
involved, that is the type of the kind at which the engine unifies their kinds, and the casts
are the conversions of the engine.
-/

namespace ConstraintSearch

namespace NumKind

/-- Numbers of the kinds `k` and `v` meet at the kind `u`, and are cast to it as the engine
converts them. -/
structure MeetAt (k v u : NumKind) : Prop where
  join : NumTy.join (.machine k) (.machine v) = .machine u
  left : u = .float → k = .float
  right : u = .float → v = .float

variable {k v u : NumKind}

/-- Two kinds meet at the kind at which they are unified, unless they are integers of different
widths. -/
theorem meetAt_of_unified? (h : k.unified? v = some u)
    (hmix : ¬ (k = .int ∧ v = .long ∨ k = .long ∧ v = .int)) : k.MeetAt v u := by
  rcases k with (- | -) | (- | -) <;> rcases v with (- | -) | (- | -) <;> cases h
  all_goals
    first
    | exact ⟨rfl, by simp, by simp⟩
    | simp at hmix

theorem meetAt_self (k : NumKind) : k.MeetAt k k :=
  ⟨NumTy.join_self _, id, id⟩

/-- Words of two widths meet at the wider one. -/
theorem exists_meetAt_words (v w : Width) :
    ∃ u : Width, MeetAt (.integral v) (.integral w) (.integral u) ∧
      v.bits ≤ u.bits ∧ w.bits ≤ u.bits := by
  cases v
  · exact ⟨w, ⟨by cases w <;> rfl, by simp, by simp⟩, by cases w <;> decide, le_rfl⟩
  · exact ⟨.w64, ⟨by cases w <;> rfl, by simp, by simp⟩, le_rfl, by cases w <;> decide⟩

end NumKind

namespace Value

variable {k v u : NumKind}

/-! ### Two numbers -/

theorem operands_ofScalar (h : k.MeetAt v u) (x : k.Carrier) (y : v.Carrier) :
    operands (ofScalar ⟨.num k, x⟩) (ofScalar ⟨.num v, y⟩) =
      .ok ⟨.machine u, k.convert u x, v.convert u y⟩ := by
  rw [← NumKind.cast_eq_convert h.left, ← NumKind.cast_eq_convert h.right]
  show operands ⟨.num (.machine k), x⟩ ⟨.num (.machine v), y⟩ = _
  unfold operands
  dsimp only
  rw [h.join]
  rfl

theorem compare_ofScalar {op : Comparison} (h : k.MeetAt v u) (x : k.Carrier) (y : v.Carrier) :
    compare op (ofScalar ⟨.num k, x⟩) (ofScalar ⟨.num v, y⟩) =
      .ok (op.holds (u.order? (k.convert u x) (v.convert u y))) := by
  rw [compare, operands_ofScalar h]
  rfl

theorem arithmetic_ofScalar {op : ArithmeticOp} (h : k.MeetAt v u) (x : k.Carrier)
    (y : v.Carrier) :
    arithmetic op (ofScalar ⟨.num k, x⟩) (ofScalar ⟨.num v, y⟩) =
      (u.arithmetic? op (k.convert u x) (v.convert u y)).elim (.error .divisionByZero)
        fun z ↦ .ok (ofScalar ⟨.num u, z⟩) := by
  rw [arithmetic, operands_ofScalar h]
  dsimp only [bind, Except.bind, NumTy.arithmetic?]
  cases u.arithmetic? op (k.convert u x) (v.convert u y) <;> rfl

theorem bitwise_ofScalar {op : BooleanOp} {v w u : Width}
    (h : NumKind.MeetAt (.integral v) (.integral w) (.integral u)) (x : Word v) (y : Word w) :
    bitwise op (ofScalar ⟨.num (.integral v), x⟩) (ofScalar ⟨.num (.integral w), y⟩) =
      .ok (ofScalar ⟨.num (.integral u),
        op.onBits (Word.wrap u x.toInt) (Word.wrap u y.toInt)⟩) := by
  show (operands (ofScalar ⟨.num (.integral v), x⟩) (ofScalar ⟨.num (.integral w), y⟩) >>= _) = _
  rw [operands_ofScalar h]
  rfl

/-! ### Casts -/

/-- A value is cast to its own type as it is. -/
theorem cast_self : (v : Value) →
    (do return (⟨v.ty, ← v.expectCast v.ty⟩ : Value)) = Except.ok (ε := EvaluationError) v
  | ⟨.bool, _⟩ => rfl
  | ⟨.num (.machine k), x⟩ => by
    show Except.ok (⟨.num (.machine k), k.cast k x⟩ : Value) = _
    rw [NumKind.cast_self]
  | ⟨.num .decimal, _⟩ => rfl

theorem cast_ofScalar_self (a : Scalar) :
    (do return (⟨Ty.ofKind a.kind, ← (ofScalar a).expectCast (Ty.ofKind a.kind)⟩ : Value)) =
      Except.ok (ε := EvaluationError) (ofScalar a) := by
  obtain ⟨- | k, x⟩ := a
  · exact cast_self (ofScalar ⟨.bool, x⟩)
  · exact cast_self (ofScalar ⟨.num k, x⟩)

/-- A number is cast to a kind as it is converted to it, if that kind is no 32-bit float. -/
theorem expectCast_ofScalar (hu : u ≠ .float) (x : k.Carrier) :
    (ofScalar ⟨.num k, x⟩).expectCast (.num (.machine u)) = .ok (k.convert u x) := by
  rw [← NumKind.cast_eq_convert fun h ↦ absurd h hu]
  rfl

/-! ### Arguments of functions -/

theorem expectDouble_ofScalar (x : k.Carrier) :
    expectDouble (ofScalar ⟨.num k, x⟩) = .ok (k.convert .double x) := by
  rw [← NumKind.cast_eq_convert (by simp)]
  rfl

theorem callValue_unary {name : String} {f : UnaryFunction}
    (hf : Builtin.ofName? name = some (.unary f)) (x : k.Carrier) :
    callValue name [ofScalar ⟨.num k, x⟩] =
      .ok (ofScalar ⟨.double, f.apply (k.convert .double x)⟩) := by
  rw [callValue, hf]
  show ([ofScalar ⟨.num k, x⟩].mapM expectDouble >>= _) = _
  rw [List.mapM_cons, expectDouble_ofScalar]
  rfl

theorem callValue_binary {name : String} {f : BinaryFunction}
    (hf : Builtin.ofName? name = some (.binary f)) (x : k.Carrier) (y : v.Carrier) :
    callValue name [ofScalar ⟨.num k, x⟩, ofScalar ⟨.num v, y⟩] =
      .ok (ofScalar ⟨.double, f.apply (k.convert .double x) (v.convert .double y)⟩) := by
  rw [callValue, hf]
  show ([ofScalar ⟨.num k, x⟩, ofScalar ⟨.num v, y⟩].mapM expectDouble >>= _) = _
  rw [List.mapM_cons, List.mapM_cons, expectDouble_ofScalar, expectDouble_ofScalar]
  rfl

theorem callValue_isNaN {name : String} (hf : Builtin.ofName? name = some .isNaN)
    (x : k.Carrier) :
    callValue name [ofScalar ⟨.num k, x⟩] = .ok (.ofBool (k.convert .double x).isNaN) := by
  rw [callValue, hf]
  show ([ofScalar ⟨.num k, x⟩].mapM expectDouble >>= _) = _
  rw [List.mapM_cons, expectDouble_ofScalar]
  rfl

end Value

namespace Expr

variable {ν : Valuation} {e l r : Expr} {name : String}

theorem evaluate_call_one :
    (Expr.call name [e]).evaluate ν = e.evaluate ν >>= fun x ↦ callValue name [x] := by
  rw [evaluate, evaluateAll, evaluateAll]
  rcases e.evaluate ν with - | x <;> rfl

theorem evaluate_call_two :
    (Expr.call name [l, r]).evaluate ν =
      l.evaluate ν >>= fun x ↦ r.evaluate ν >>= fun y ↦ callValue name [x, y] := by
  rw [evaluate, evaluateAll, evaluateAll, evaluateAll]
  rcases l.evaluate ν with - | x
  · rfl
  · rcases r.evaluate ν with - | y <;> rfl

theorem evaluate_compare_of_ok {op : Comparison} {k v u : NumKind} {x : k.Carrier}
    {y : v.Carrier} (h : k.MeetAt v u) (hl : l.evaluate ν = .ok (.ofScalar ⟨.num k, x⟩))
    (hr : r.evaluate ν = .ok (.ofScalar ⟨.num v, y⟩)) :
    (Expr.compare op l r).evaluate ν =
      .ok (.ofBool (op.holds (u.order? (k.convert u x) (v.convert u y)))) := by
  rw [evaluate, hl, hr]
  show (Value.compare op (.ofScalar ⟨.num k, x⟩) (.ofScalar ⟨.num v, y⟩) >>=
    fun c ↦ pure (.ofBool c) : Except EvaluationError Value) = _
  rw [Value.compare_ofScalar h]
  rfl

theorem evaluate_cast_of_ok {k u : NumKind} {x : k.Carrier} (hu : u ≠ .float)
    (he : e.evaluate ν = .ok (.ofScalar ⟨.num k, x⟩)) :
    (Expr.cast (.num (.machine u)) e).evaluate ν = .ok (.ofScalar ⟨.num u, k.convert u x⟩) := by
  rw [evaluate, he]
  show ((Value.ofScalar ⟨.num k, x⟩).expectCast (.num (.machine u)) >>=
    fun y ↦ pure ⟨.num (.machine u), y⟩ : Except EvaluationError Value) = _
  rw [Value.expectCast_ofScalar hu]
  rfl

end Expr

end ConstraintSearch

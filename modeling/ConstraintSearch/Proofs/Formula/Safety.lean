import ConstraintSearch.Proofs.Formula.Operators
import ConstraintSearch.Proofs.Lowering.Kinds

/-!
# Safe evaluation

Operators of source expressions fail on operands that they are not made for. What is left where the
operands are right is a division by zero, and the cast of a number from or to the decimals, which
the operators themselves make when a decimal meets another number. `Safe` says that nothing else
happens, and what is known of the result.

Of the type of a value only a little is known. `Ty.Fits` is what the kind of a term tells about the
type of the expression: it separates booleans from numbers, and where the term is an integer so is
the value.
-/

namespace ConstraintSearch

variable {dec : Prop}

/-! ### Types that fit a kind -/

/-- The type is that of a boolean exactly if the kind is, and it is that of an integer if the kind
is. It is the type of decimals only if `dec` holds. -/
structure Ty.Fits (dec : Prop) (t : Ty) (k : Kind) : Prop where
  bool_iff : t = .bool ↔ k = .bool
  real : t.isReal = true → k.isReal = true
  decimal : t = .decimal → dec

/-- Two numeric types meet at one of them. -/
theorem NumTy.join_eq (s t : NumTy) : s.join t = s ∨ s.join t = t := by
  unfold join
  split
  · exact .inl rfl
  · exact .inr rfl

/-- Where two kinds are unified at integers, both are integers. -/
theorem NumKind.isIntegral_of_unified? {k v u : NumKind} (h : k.unified? v = some u)
    (hu : u.isIntegral = true) : k.isIntegral = true ∧ v.isIntegral = true := by
  rcases k with (- | -) | (- | -) <;> rcases v with (- | -) | (- | -) <;> cases h <;>
    first | exact ⟨rfl, rfl⟩ | cases hu

namespace Ty.Fits

variable {s t : NumTy} {k v u : NumKind}

theorem ofBool : Ty.bool.Fits dec .bool where
  bool_iff := by simp
  real := by simp [isReal]
  decimal := by simp

theorem ofNum (hreal : s.isIntegral = false → k.isIntegral = false) (hdec : s = .decimal → dec) :
    (Ty.num s).Fits dec (.num k) where
  bool_iff := by simp
  real := by simpa [isReal, Kind.isReal] using hreal
  decimal h := hdec (Ty.num.inj h)

theorem ofKind (k : Kind) : (Ty.ofKind k).Fits dec k := by
  cases k with
  | bool => exact .ofBool
  | num k => exact .ofNum id (by simp)

theorem isIntegral_eq_false (h : (Ty.num s).Fits dec (.num k)) (hs : s.isIntegral = false) :
    k.isIntegral = false := by
  simpa [isReal, Kind.isReal, hs] using h.real

theorem eq_num {t : Ty} (h : t.Fits dec (.num k)) : ∃ s, t = .num s := by
  match t with
  | .bool => cases h.bool_iff.1 rfl
  | .num s => exact ⟨s, rfl⟩

/-- The type of an operand fits the kind at which the operands are unified. -/
theorem unified_left {t : Ty} (h : t.Fits dec (.num k)) (hu : k.unified? v = some u) :
    t.Fits dec (.num u) := by
  obtain ⟨s, rfl⟩ := h.eq_num
  refine ofNum (fun hs ↦ ?_) fun hs ↦ h.decimal (congrArg Ty.num hs)
  by_contra hint
  have hk := (NumKind.isIntegral_of_unified? hu (by simpa using hint)).1
  simp [h.isIntegral_eq_false hs] at hk

theorem unified_right {t : Ty} (h : t.Fits dec (.num v)) (hu : k.unified? v = some u) :
    t.Fits dec (.num u) := by
  obtain ⟨s, rfl⟩ := h.eq_num
  refine ofNum (fun hs ↦ ?_) fun hs ↦ h.decimal (congrArg Ty.num hs)
  by_contra hint
  have hv := (NumKind.isIntegral_of_unified? hu (by simpa using hint)).2
  simp [h.isIntegral_eq_false hs] at hv

/-- So does the type at which they meet. -/
theorem join (hs : (Ty.num s).Fits dec (.num k)) (ht : (Ty.num t).Fits dec (.num v))
    (hu : k.unified? v = some u) : (Ty.num (s.join t)).Fits dec (.num u) := by
  rcases NumTy.join_eq s t with h | h <;> rw [h]
  · exact hs.unified_left hu
  · exact ht.unified_right hu

/-- The integers are the types that fit the kinds of integers. -/
theorem eq_word {t : Ty} {w : Width} (h : t.Fits dec (.num (.integral w))) :
    ∃ v, t = .num (.machine (.integral v)) := by
  obtain ⟨s, rfl⟩ := h.eq_num
  match s with
  | .machine (.integral v) => exact ⟨v, rfl⟩
  | .machine (.real _) => cases h.isIntegral_eq_false rfl
  | .decimal => cases h.isIntegral_eq_false rfl

end Ty.Fits

/-! ### Safe steps -/

/-- The step gives a result with the property `P`, or it divides by zero, or a cast fails; the
latter happens only if `dec` holds. -/
def Safe (dec : Prop) {α : Type} (P : α → Prop) : Except EvaluationError α → Prop
  | .ok a => P a
  | .error e => e = .divisionByZero ∨ dec ∧ ∃ s t, e = .cast s t

namespace Safe

variable {α β : Type} {P : α → Prop} {Q : β → Prop} {x : Except EvaluationError α}

theorem bind {f : α → Except EvaluationError β} (hx : Safe dec P x)
    (hf : ∀ a, P a → Safe dec Q (f a)) : Safe dec Q (x >>= f) := by
  cases x with
  | ok a => exact hf a hx
  | error e => exact hx

theorem imp {P' : α → Prop} (hx : Safe dec P x) (h : ∀ a, P a → P' a) : Safe dec P' x := by
  cases x with
  | ok a => exact h a hx
  | error e => exact hx

theorem of_eq_ok {a : α} (h : x = .ok a) (ha : P a) : Safe dec P x := by
  subst h
  exact ha

end Safe

/-! ### Operators -/

namespace Value

variable {k v u : NumKind} {a b : Value}

theorem exists_number (h : a.ty.Fits dec (.num k)) :
    ∃ (s : NumTy) (x : s.Carrier), a = ⟨.num s, x⟩ := by
  obtain ⟨t, x⟩ := a
  obtain ⟨s, rfl⟩ := h.eq_num
  exact ⟨s, x, rfl⟩

theorem exists_scalarWord {w : Width} (h : a.ty.Fits dec (.num (.integral w))) :
    ∃ (v : Width) (x : Word v), a = .ofScalar ⟨.num (.integral v), x⟩ := by
  obtain ⟨t, x⟩ := a
  obtain ⟨v, rfl⟩ := h.eq_word
  exact ⟨v, x, rfl⟩

/-- Between numbers a cast can fail only from or to the decimals. -/
theorem safe_expectCast {s t : NumTy} (x : s.Carrier) (h : s = .decimal ∨ t = .decimal → dec) :
    Safe dec (fun _ ↦ True) (expectCast ⟨.num s, x⟩ (.num t)) := by
  match s, t with
  | .machine _, .machine _ => exact .of_eq_ok rfl trivial
  | .decimal, t =>
    unfold expectCast
    split
    · trivial
    · exact .inr ⟨h (.inl rfl), _, _, rfl⟩
  | .machine _, .decimal =>
    unfold expectCast
    split
    · trivial
    · exact .inr ⟨h (.inr rfl), _, _, rfl⟩

theorem safe_operands {s t : NumTy} (x : s.Carrier) (y : t.Carrier)
    (h : s = .decimal ∨ t = .decimal → dec) :
    Safe dec (fun o ↦ o.ty = s.join t) (operands ⟨.num s, x⟩ ⟨.num t, y⟩) := by
  have hjoin : s.join t = .decimal → s = .decimal ∨ t = .decimal := by
    rcases NumTy.join_eq s t with hst | hst <;> rw [hst]
    · exact .inl
    · exact .inr
  refine (safe_expectCast x fun hd ↦ h ?_).bind fun x' _ ↦
    (safe_expectCast y fun hd ↦ h ?_).bind fun y' _ ↦ .of_eq_ok rfl rfl
  · exact hd.elim .inl hjoin
  · exact hd.elim .inr hjoin

theorem decimal_of_fits {s t : NumTy} (hs : (Ty.num s).Fits dec (.num k))
    (ht : (Ty.num t).Fits dec (.num v)) (h : s = .decimal ∨ t = .decimal) : dec :=
  h.elim (fun h ↦ hs.decimal (congrArg Ty.num h)) fun h ↦ ht.decimal (congrArg Ty.num h)

theorem safe_compare (op : Comparison) (ha : a.ty.Fits dec (.num k)) (hb : b.ty.Fits dec (.num v)) :
    Safe dec (fun c ↦ c.ty.Fits dec .bool) (do return Value.ofBool (← compare op a b)) := by
  obtain ⟨s, x, rfl⟩ := exists_number ha
  obtain ⟨t, y, rfl⟩ := exists_number hb
  have ho := safe_operands x y (decimal_of_fits ha hb)
  exact (ho.bind (Q := fun _ ↦ True) fun o _ ↦ .of_eq_ok rfl trivial).bind fun c _ ↦
    .of_eq_ok rfl .ofBool

theorem safe_arithmetic (op : ArithmeticOp) (ha : a.ty.Fits dec (.num k))
    (hb : b.ty.Fits dec (.num v)) (hu : k.unified? v = some u) :
    Safe dec (fun c ↦ c.ty.Fits dec (.num u)) (arithmetic op a b) := by
  obtain ⟨s, x, rfl⟩ := exists_number ha
  obtain ⟨t, y, rfl⟩ := exists_number hb
  refine (safe_operands x y (decimal_of_fits ha hb)).bind ?_
  rintro ⟨m, x', y'⟩ rfl
  dsimp only
  split
  · exact ha.join hb hu
  · exact .inl rfl

theorem safe_expectBool (ha : a.ty.Fits dec .bool) : Safe dec (fun _ ↦ True) a.expectBool := by
  obtain ⟨t, x⟩ := a
  obtain rfl : t = .bool := ha.bool_iff.2 rfl
  trivial

theorem safe_negate (ha : a.ty.Fits dec (.num k)) :
    Safe dec (fun c ↦ c.ty.Fits dec (.num k)) a.negate := by
  obtain ⟨s, x, rfl⟩ := exists_number ha
  exact .of_eq_ok rfl ha

/-- Operators on bits of words are safe: they give words. -/
theorem safe_bits (op : BitOp) {v w : Width} (ha : a.ty.Fits dec (.num (.integral v)))
    (hb : b.ty.Fits dec (.num (.integral w))) :
    Safe dec (fun c ↦ c.ty.Fits dec (.num (.integral v))) (bits op a b) := by
  obtain ⟨v', x, rfl⟩ := exists_scalarWord ha
  obtain ⟨w', y, rfl⟩ := exists_scalarWord hb
  cases op with
  | bitwise op =>
    obtain ⟨u, hu, -⟩ := NumKind.exists_meetAt_words v' w'
    refine .of_eq_ok (bitwise_ofScalar hu x y) (.ofNum ?_ ?_)
    · exact fun h ↦ by cases h
    · simp
  | shift op => exact .of_eq_ok rfl ha

/-- A cast keeps booleans and numbers apart. -/
theorem safe_cast {t : Ty} {k : Kind} (ha : a.ty.Fits dec k) (hbool : t = .bool ↔ k = .bool)
    (hdec : t = .decimal → dec) :
    Safe dec (fun c ↦ c.ty = t) (do return (⟨t, ← a.expectCast t⟩ : Value)) := by
  suffices h : Safe dec (fun _ ↦ True) (a.expectCast t) from h.bind fun y _ ↦ .of_eq_ok rfl rfl
  obtain ⟨s, x⟩ := a
  match s, t with
  | .bool, .bool => trivial
  | .num s, .num t =>
    refine safe_expectCast x fun h ↦ ?_
    rcases h with rfl | rfl
    · exact ha.decimal rfl
    · exact hdec rfl
  | .bool, .num _ => cases hbool.2 (ha.bool_iff.1 rfl)
  | .num _, .bool => cases ha.bool_iff.2 (hbool.1 rfl)

/-! ### Calls -/

/-- Every number is a 64-bit float when it is an argument. -/
theorem exists_expectDouble {s : NumTy} (x : s.Carrier) :
    ∃ y, expectDouble ⟨.num s, x⟩ = .ok y := by
  match s with
  | .machine _ => exact ⟨_, rfl⟩
  | .decimal => exact ⟨_, rfl⟩

theorem exists_expectDoubles {vs : List Value} (h : ∀ v ∈ vs, v.ty.isNumeric = true) :
    ∃ xs, vs.mapM expectDouble = .ok xs ∧ xs.length = vs.length := by
  induction vs with
  | nil => exact ⟨[], rfl, rfl⟩
  | cons v vs ih =>
    rw [List.forall_mem_cons] at h
    obtain ⟨hv, hvs⟩ := h
    obtain ⟨- | s, x⟩ := v
    · cases hv
    · obtain ⟨y, hy⟩ := exists_expectDouble x
      obtain ⟨xs, hxs, hlen⟩ := ih hvs
      refine ⟨y :: xs, ?_, by rw [List.length_cons, List.length_cons, hlen]⟩
      rw [List.mapM_cons, hy, hxs]
      rfl

theorem exists_apply? {f : Builtin} {xs : List (BinaryFloat .w64)} (h : xs.length = f.arity) :
    ∃ c, f.apply? xs = some c ∧ c.ty = Ty.ofKind f.kind := by
  match f, xs, h with
  | .unary _, [x], _ => exact ⟨_, rfl, rfl⟩
  | .binary _, [x, y], _ => exact ⟨_, rfl, rfl⟩
  | .isNaN, [x], _ => exact ⟨_, rfl, rfl⟩

/-- A function has a value at numbers in the right number. -/
theorem exists_callValue {name : String} {f : Builtin} {vs : List Value}
    (hf : Builtin.ofName? name = some f) (hn : vs.length = f.arity)
    (hvs : ∀ v ∈ vs, v.ty.isNumeric = true) :
    ∃ c, callValue name vs = .ok c ∧ c.ty = Ty.ofKind f.kind := by
  obtain ⟨xs, hxs, hlen⟩ := exists_expectDoubles hvs
  obtain ⟨c, hc, hty⟩ := exists_apply? (hlen.trans hn)
  refine ⟨c, ?_, hty⟩
  unfold callValue
  rw [hf]
  show (if vs.length = f.arity then vs.mapM expectDouble >>= _ else _) = _
  rw [if_pos hn, hxs]
  simp only [bind, Except.bind, hc]
  rfl

theorem safe_callValue {name : String} {f : Builtin} {vs : List Value}
    (hf : Builtin.ofName? name = some f) (hn : vs.length = f.arity)
    (hvs : ∀ v ∈ vs, ∃ n, v.ty.Fits dec (.num n)) :
    Safe dec (fun c ↦ c.ty.Fits dec f.kind) (callValue name vs) := by
  have hnumeric : ∀ v ∈ vs, v.ty.isNumeric = true := by
    intro v hv
    obtain ⟨n, hfits⟩ := hvs v hv
    obtain ⟨s, hs⟩ := hfits.eq_num
    rw [hs]
    rfl
  obtain ⟨c, hc, hty⟩ := exists_callValue hf hn hnumeric
  refine .of_eq_ok hc ?_
  rw [hty]
  exact .ofKind f.kind

end Value

end ConstraintSearch

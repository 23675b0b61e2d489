import ConstraintSearch.Proofs.Lowering.Bindings
import ConstraintSearch.Proofs.Lowering.Unification

/-!
# The kind of a lowered expression

The kind of the term to which an expression is lowered can be read off the expression: every
operator determines the kind of its result from the kinds of its operands, and a variable has
the kind of its type. `Expr.kind?` computes it, and `Lowers.kind?_eq` says that it is right
wherever the literals of the variables have the kinds of their types.

This kind is not the declared type, which looks at the left operand only. The two agree for the
wide integers and the narrow floats, to which nothing is ever converted.
-/

namespace ConstraintSearch

/-- The kind of the constant term of a value: a decimal becomes a 64-bit float. -/
def Ty.constantKind (t : Ty) : Kind :=
  t.kind?.getD .double

/-- The kind that a cast to a type gives where it converts. -/
def Ty.castKind? : Ty → Kind → Option Kind
  | .num (.machine k), .num _ => some (if k.isIntegral then .int else .double)
  | _, _ => none

namespace Kind

/-- The kind at which two kinds are unified, if both are numeric. -/
def unified? : Kind → Kind → Option NumKind
  | .num k, .num v => k.unified? v
  | _, _ => none

/-- The kind of the result of an operator on the bits of two words of one width. -/
def bits? (op : BitOp) : Kind → Kind → Option Kind
  | .num (.integral v), .num (.integral w) =>
    if v = w ∧ (op = .shift .rightZero → w = .w32) then some (.num (.integral w)) else none
  | _, _ => none

end Kind

/-- The kind of the result of a function. -/
def Builtin.kind : Builtin → Kind
  | .isNaN => .bool
  | _ => .double

namespace Expr

mutual

/-- The kind of the term of an expression, if there is one. -/
def kind? : Expr → Option Kind
  | .const v => some v.ty.constantKind
  | .var x => x.ty.kind?
  | .not e => e.kind?.filter (· = .bool)
  | .neg e => e.kind?.filter Kind.isNumeric
  | .compare _ l r => do
    let _ ← (← l.kind?).unified? (← r.kind?)
    return .bool
  | .arith _ l r => do
    let k ← (← l.kind?).unified? (← r.kind?)
    return .num k
  | .connect (.boolean _) l r =>
    if l.kind? = some .bool ∧ r.kind? = some .bool then some .bool else none
  | .connect _ _ _ => none
  | .bits op l r => do Kind.bits? op (← l.kind?) (← r.kind?)
  | .cast target e => if e.ty = target then e.kind? else do target.castKind? (← e.kind?)
  | .call name args => do
    let f ← Builtin.ofName? name
    if args.length = f.arity ∧ allNumeric args then some f.kind else none

/-- Whether the terms of all expressions of a list are numeric. -/
def allNumeric : List Expr → Bool
  | [] => true
  | e :: es => e.kind?.any Kind.isNumeric && allNumeric es

end

end Expr

/-! ### The kind of the term -/

namespace LoweringState

/-- The literals of the given variables have the kinds of their types. -/
def Respects (s : LoweringState) (xs : List Variable) : Prop :=
  ∀ x ∈ xs, ∀ l, s.literal? x = some l → x.ty.kind? = some l.kind

variable {s s' : LoweringState} {xs ys : List Variable}

theorem WellKinded.respects (h : s.WellKinded) : s.Respects xs :=
  fun x _ ↦ h x

theorem Respects.left (h : s.Respects (xs ++ ys)) : s.Respects xs :=
  fun x hx ↦ h x (List.mem_append_left _ hx)

theorem Respects.right (h : s.Respects (xs ++ ys)) : s.Respects ys :=
  fun x hx ↦ h x (List.mem_append_right _ hx)

/-- What holds of the literals after a derivation has held of those before it. -/
theorem Respects.before {e : Expr} {t : KindedTerm} (h : s'.Respects xs) (he : Lowers s e t s') :
    s.Respects xs :=
  fun x hx l hl ↦ h x hx l (he.literal?_mono hl)

end LoweringState

theorem Lower.constant_kind (v : Value) : (constant v).kind = v.ty.constantKind := by
  match v with
  | ⟨.bool, _⟩ => rfl
  | ⟨.num (.machine _), _⟩ => rfl
  | ⟨.num .decimal, _⟩ => rfl

/-- The pair is of one kind, and so is the operand that may stay alone. -/
theorem Lower.soleOperand?_kind {op : ArithmeticOp} {l r : Expr} {p : TermPair} :
    ((soleOperand? op l r p).getD (p.arith op)).kind = p.kind := by
  obtain h | ⟨-, ⟨-, h⟩ | ⟨-, h⟩⟩ := soleOperand?_cases op l r p <;> rw [h] <;> rfl

namespace Lowers

variable {s s' : LoweringState} {e : Expr} {t : KindedTerm}

/-- Lowering gives terms of the kind that the expression has. -/
theorem kind?_eq (h : Lowers s e t s') (hs : s'.Respects e.vars) : e.kind? = some t.kind := by
  induction h with
  | const => simp [Expr.kind?, Lower.constant_kind]
  | @bound s x l hx => exact hs x (by simp [Expr.vars]) l hx
  | fresh _ hk => exact hk
  | not _ ih => simp [Expr.kind?, ih hs, Lower.ofBool]
  | neg _ ih => simp [Expr.kind?, ih hs, NumTerm.toKinded, Kind.isNumeric]
  | compare _ hr hp ihl ihr =>
    have hk := (NumTerm.unified_of_unify hp).kind
    simp [Expr.kind?, ihl (hs.left.before hr), ihr hs.right, NumTerm.toKinded, Kind.unified?, hk,
      Lower.ofBool]
  | arith _ hr hp ihl ihr =>
    have hk := (NumTerm.unified_of_unify hp).kind
    simp [Expr.kind?, ihl (hs.left.before hr), ihr hs.right, NumTerm.toKinded, Kind.unified?, hk,
      Lower.soleOperand?_kind]
  | logic _ hr ihl ihr =>
    simp [Expr.kind?, ihl (hs.left.before hr), ihr hs.right, Lower.ofBool]
  | bitwise _ hr ihl ihr =>
    simp [Expr.kind?, ihl (hs.left.before hr), ihr hs.right, Kind.bits?]
  | shift hop _ hr ihl ihr =>
    simpa [Expr.kind?, ihl (hs.left.before hr), ihr hs.right, Kind.bits?, ShiftOp.ExistsAt]
      using hop
  | castNone _ ih => simp [Expr.kind?, ih hs]
  | castInt he _ ih =>
    simp [Expr.kind?, he, ih hs, NumTerm.toKinded, Ty.castKind?, NumKind.isIntegral]
  | castDouble he _ ih =>
    simp [Expr.kind?, he, ih hs, NumTerm.toKinded, Ty.castKind?, NumKind.isIntegral]
  | unary hf _ ih =>
    simp [Expr.kind?, hf, Expr.allNumeric, ih hs.left, NumTerm.toKinded, Kind.isNumeric,
      Builtin.arity, Builtin.kind]
  | binary hf _ hr ihl ihr =>
    simp [Expr.kind?, hf, Expr.allNumeric, ihl (hs.left.before hr), ihr hs.right.left,
      NumTerm.toKinded, Kind.isNumeric, Builtin.arity, Builtin.kind]
  | isNaN hf _ ih =>
    simp [Expr.kind?, hf, Expr.allNumeric, ih hs.left, NumTerm.toKinded, Kind.isNumeric,
      Builtin.arity, Builtin.kind, Lower.ofBool]

end Lowers

/-! ### The kind and the declared type -/

/-- The kinds to which nothing is converted. -/
def Kind.Preserved (k : Kind) : Prop :=
  k ≠ .int ∧ k ≠ .double

theorem Kind.unified?_preserved {a b : Kind} {u : NumKind} (h : a.unified? b = some u)
    (hu : (Kind.num u).Preserved) : a = .num u := by
  rcases a with - | (- | -) | (- | -) <;> rcases b with - | (- | -) | (- | -) <;> cases h <;>
    first | rfl | simp [Preserved] at hu

theorem Kind.unified?_integral {a b : Kind} {w : Width} (h : a.unified? b = some (.integral w)) :
    ∃ v, a = .num (.integral v) := by
  rcases a with - | v | (- | -) <;> rcases b with - | (- | -) | (- | -) <;>
    first | cases h | exact ⟨v, rfl⟩

theorem Kind.bits?_eq_some {op : BitOp} {a b k : Kind} (h : Kind.bits? op a b = some k) :
    a = k ∧ b = k := by
  match a, b with
  | .num (.integral v), .num (.integral w) =>
    rw [bits?] at h
    split at h
    · next hw =>
      obtain ⟨rfl, -⟩ := hw
      cases h
      exact ⟨rfl, rfl⟩
    · cases h

/-- Only numbers are unified. -/
theorem Kind.unified?_eq_some {a b : Kind} {u : NumKind} (h : a.unified? b = some u) :
    ∃ k v, a = .num k ∧ b = .num v ∧ k.unified? v = some u := by
  match a, b with
  | .num k, .num v => exact ⟨k, v, rfl, rfl, h⟩

/-- What an operator on bits asks of the kind of its operands. -/
theorem Kind.bits?_self {op : BitOp} {k : Kind} (h : Kind.bits? op k k = some k) :
    ∃ w, k = .num (.integral w) ∧ (op = .shift .rightZero → w = .w32) := by
  match k with
  | .num (.integral w) =>
    refine ⟨w, rfl, fun hop ↦ ?_⟩
    rw [bits?] at h
    split at h
    · next hw => exact hw.2 hop
    · cases h

theorem Ty.eq_ofKind_constantKind {t : Ty} (h : t.constantKind.Preserved) :
    t = Ty.ofKind t.constantKind := by
  match t with
  | .bool => rfl
  | .num (.machine _) => rfl
  | .num .decimal => exact absurd rfl h.2

theorem Ty.castKind?_eq_some {t : Ty} {a k : Kind} (h : t.castKind? a = some k) :
    k = .int ∨ k = .double := by
  match t, a with
  | .num (.machine (.integral _)), .num _ => cases h; exact .inl rfl
  | .num (.machine (.real _)), .num _ => cases h; exact .inr rfl

theorem Builtin.eq_isNaNName {name : String} (h : ofName? name = some .isNaN) :
    name = isNaNName := by
  unfold ofName? at h
  split at h <;> simp at h
  exact h

/-- The kind of a function's result is that of the declared type of its calls. -/
theorem Builtin.ofKind_kind {name : String} {f : Builtin} (hf : ofName? name = some f) :
    Ty.ofKind f.kind = if name = isNaNName then .bool else .double := by
  split
  · next hname =>
    subst hname
    obtain rfl : Builtin.isNaN = f := Option.some.inj hf
    rfl
  · next hname =>
    cases f with
    | unary f => rfl
    | binary f => rfl
    | isNaN => exact absurd (eq_isNaNName hf) hname

namespace Expr

variable {e l r : Expr} {k : Kind}

/-! What the kinds of nodes say of their operands. -/

theorem kind?_not_eq_some (h : (Expr.not e).kind? = some k) : e.kind? = some .bool ∧ k = .bool := by
  obtain ⟨he, hb⟩ := Option.filter_eq_some_iff.1 h
  obtain rfl : k = .bool := by simpa using hb
  exact ⟨he, rfl⟩

theorem kind?_neg_eq_some (h : (Expr.neg e).kind? = some k) :
    ∃ n, e.kind? = some (.num n) ∧ k = .num n := by
  obtain ⟨he, hn⟩ := Option.filter_eq_some_iff.1 h
  match k with
  | .num n => exact ⟨n, he, rfl⟩

theorem kind?_compare_eq_some {op : Comparison} (h : (Expr.compare op l r).kind? = some k) :
    ∃ a b u, l.kind? = some a ∧ r.kind? = some b ∧ a.unified? b = some u ∧ k = .bool := by
  obtain ⟨a, ha, b, hb, u, hu, hk⟩ : ∃ a, l.kind? = some a ∧ ∃ b, r.kind? = some b ∧
      ∃ u, a.unified? b = some u ∧ Kind.bool = k := by
    simpa [kind?, Option.bind_eq_some_iff] using h
  exact ⟨a, b, u, ha, hb, hu, hk.symm⟩

theorem kind?_arith_eq_some {op : ArithmeticOp} (h : (Expr.arith op l r).kind? = some k) :
    ∃ a b u, l.kind? = some a ∧ r.kind? = some b ∧ a.unified? b = some u ∧ k = .num u := by
  obtain ⟨a, ha, b, hb, u, hu, hk⟩ : ∃ a, l.kind? = some a ∧ ∃ b, r.kind? = some b ∧
      ∃ u, a.unified? b = some u ∧ Kind.num u = k := by
    simpa [kind?, Option.bind_eq_some_iff] using h
  exact ⟨a, b, u, ha, hb, hu, hk.symm⟩

theorem kind?_connect_eq_some {op : Connective} (h : (Expr.connect op l r).kind? = some k) :
    k = .bool := by
  cases op with
  | boolean op =>
    rw [kind?] at h
    split at h <;> cases h
    rfl
  | iff => cases h
  | implies => cases h

theorem kind?_boolean_eq_some {op : BooleanOp}
    (h : (Expr.connect (.boolean op) l r).kind? = some k) :
    l.kind? = some .bool ∧ r.kind? = some .bool ∧ k = .bool := by
  rw [kind?] at h
  split at h
  · next hb =>
    cases h
    exact ⟨hb.1, hb.2, rfl⟩
  · cases h

theorem kind?_bits_eq_some {op : BitOp} (h : (Expr.bits op l r).kind? = some k) :
    l.kind? = some k ∧ r.kind? = some k := by
  obtain ⟨a, ha, b, hb, hbits⟩ : ∃ a, l.kind? = some a ∧ ∃ b, r.kind? = some b ∧
      Kind.bits? op a b = some k := by
    simpa [kind?, Option.bind_eq_some_iff] using h
  obtain ⟨rfl, rfl⟩ := Kind.bits?_eq_some hbits
  exact ⟨ha, hb⟩

/-- The operands of an operator on bits are words of one width. -/
theorem kind?_bits_word {op : BitOp} (h : (Expr.bits op l r).kind? = some k) :
    ∃ w, l.kind? = some (.num (.integral w)) ∧ r.kind? = some (.num (.integral w)) ∧
      k = .num (.integral w) ∧ (op = .shift .rightZero → w = .w32) := by
  obtain ⟨ha, hb⟩ := kind?_bits_eq_some h
  obtain ⟨w, rfl, hop⟩ := Kind.bits?_self (by simpa [kind?, ha, hb] using h)
  exact ⟨w, ha, hb, rfl, hop⟩

theorem allNumeric_iff {es : List Expr} :
    allNumeric es = true ↔ ∀ e ∈ es, ∃ n, e.kind? = some (.num n) := by
  induction es with
  | nil => simp [allNumeric]
  | cons e es ih =>
    rw [allNumeric, Bool.and_eq_true, ih, List.forall_mem_cons]
    refine and_congr_left fun _ ↦ ?_
    rcases e.kind? with - | - | n <;> simp [Kind.isNumeric]

/-- A call is one of a function, with numbers as its arguments, and with the right number of
them. -/
theorem kind?_call_args {name : String} {args : List Expr}
    (h : (Expr.call name args).kind? = some k) :
    ∃ f, Builtin.ofName? name = some f ∧ args.length = f.arity ∧
      (∀ e ∈ args, ∃ n, e.kind? = some (.num n)) ∧ k = f.kind := by
  obtain ⟨f, hf, ⟨hn, ha⟩, hk⟩ : ∃ f, Builtin.ofName? name = some f ∧
      (args.length = f.arity ∧ allNumeric args = true) ∧ f.kind = k := by
    simpa [kind?, Option.bind_eq_some_iff] using h
  exact ⟨f, hf, hn, allNumeric_iff.1 ha, hk.symm⟩

theorem kind?_call_eq_some {name : String} {args : List Expr}
    (h : (Expr.call name args).kind? = some k) :
    ∃ f, Builtin.ofName? name = some f ∧ k = f.kind := by
  obtain ⟨f, hf, -, -, hk⟩ := kind?_call_args h
  exact ⟨f, hf, hk⟩

/-- An expression of a kind to which nothing is converted has the type of that kind. -/
theorem ty_eq_of_kind? (h : e.kind? = some k) (hk : k.Preserved) : e.ty = Ty.ofKind k := by
  induction e generalizing k with
  | const v =>
    obtain rfl : v.ty.constantKind = k := Option.some.inj h
    exact Ty.eq_ofKind_constantKind hk
  | var x => exact (Ty.ofKind_of_kind? h).symm
  | not e ih =>
    obtain ⟨-, hbool⟩ := Option.filter_eq_some_iff.1 h
    obtain rfl : k = .bool := by simpa using hbool
    rfl
  | neg e ih => exact ih (Option.filter_eq_some_iff.1 h).1 hk
  | compare op l r ihl ihr =>
    obtain ⟨_, _, _, -, -, -, rfl⟩ := kind?_compare_eq_some h
    rfl
  | arith op l r ihl ihr =>
    obtain ⟨a, b, u, ha, -, hu, rfl⟩ := kind?_arith_eq_some h
    rw [Kind.unified?_preserved hu hk] at ha
    exact ihl ha hk
  | connect op l r ihl ihr =>
    obtain rfl := kind?_connect_eq_some h
    rfl
  | bits op l r ihl ihr => exact ihl (kind?_bits_eq_some h).1 hk
  | cast target e ih =>
    rw [kind?] at h
    split at h
    · next ht => exact ht ▸ ih h hk
    · obtain ⟨a, -, hcast⟩ := Option.bind_eq_some_iff.1 h
      rcases Ty.castKind?_eq_some hcast with rfl | rfl
      · exact absurd rfl hk.1
      · exact absurd rfl hk.2
  | call name args ih =>
    obtain ⟨f, hf, rfl⟩ := kind?_call_eq_some h
    cases f with
    | isNaN => rw [ty, if_pos (Builtin.eq_isNaNName hf)]; rfl
    | unary f => exact absurd rfl hk.2
    | binary f => exact absurd rfl hk.2

/-- An expression whose declared type is one of floats is not lowered to a word. -/
theorem kind?_ne_integral {v w : Width} (ht : e.ty = .num (.machine (.real v))) :
    e.kind? ≠ some (.num (.integral w)) := by
  intro h
  induction e generalizing w with
  | const c =>
    have hk : c.ty.constantKind = .num (.integral w) := Option.some.inj h
    rw [show c.ty = _ from ht] at hk
    cases hk
  | var x =>
    rw [kind?, show x.ty = _ from ht] at h
    cases h
  | not | compare | connect => cases ht
  | neg e ih => exact ih ht (Option.filter_eq_some_iff.1 h).1
  | arith op l r ihl ihr =>
    obtain ⟨a, b, u, ha, -, hu, hk⟩ := kind?_arith_eq_some h
    cases hk
    obtain ⟨w, rfl⟩ := Kind.unified?_integral hu
    exact ihl ht ha
  | bits op l r ihl ihr => exact ihl ht (kind?_bits_eq_some h).1
  | cast target e ih =>
    obtain rfl : target = _ := ht
    rw [kind?] at h
    split at h
    · next ht => exact ih ht h
    · obtain ⟨a, -, hcast⟩ := Option.bind_eq_some_iff.1 h
      cases a <;> cases hcast
  | call name args ih =>
    obtain ⟨f, -, hk⟩ := kind?_call_eq_some h
    cases f <;> cases hk

end Expr

end ConstraintSearch

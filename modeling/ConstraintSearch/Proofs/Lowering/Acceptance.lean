import ConstraintSearch.Proofs.Lowering.Kinds

/-!
# Which expressions can be lowered

`Lowers.kind?_eq` says that only expressions with a kind can be lowered. Here is the converse: an
expression with a kind can be lowered from every state in which bound literals have the kinds of
their variables. All states that a pass can reach are such, so what has been lowered before, with
success or without, has no influence on what can be lowered.

The converse is an induction on the expression. A node finds its operands lowered to terms of the
kinds that the node asks for, the right one from a state in which the literals of the left one are
bound already.
-/

namespace ConstraintSearch

/-! ### Expressions with a kind -/

/-- From the state the expression can be lowered, to a term of the kind. -/
def LoweringState.CanLower (s : LoweringState) (e : Expr) (k : Kind) : Prop :=
  ∃ (t : Term k) (s' : LoweringState), Lowers s e ⟨k, t⟩ s'

theorem Lowers.canLower {s s' : LoweringState} {e : Expr} {t : KindedTerm} {k : Kind}
    (h : Lowers s e t s') (hk : t.kind = k) : s.CanLower e k := by
  subst hk
  exact ⟨t.term, s', h⟩

namespace LoweringState

variable {s : LoweringState} {e l r : Expr} {k v : Kind}

/-- The right operand is lowered after the left one, and from a state of the same sort. -/
theorem CanLower.operands (hl : s.CanLower l k) (hs : s.WellKinded)
    (hr : ∀ {s' : LoweringState}, s'.WellKinded → s'.CanLower r v) :
    ∃ (lt : Term k) (rt : Term v) (s₁ s₂ : LoweringState),
      Lowers s l ⟨k, lt⟩ s₁ ∧ Lowers s₁ r ⟨v, rt⟩ s₂ := by
  obtain ⟨lt, s₁, hlt⟩ := hl
  obtain ⟨rt, s₂, hrt⟩ := hr (hs.grows hlt.grows)
  exact ⟨lt, rt, s₁, s₂, hlt, hrt⟩

theorem canLower_var {x : Variable} (hs : s.WellKinded) (hk : x.ty.kind? = some k) :
    s.CanLower (.var x) k := by
  rcases hx : s.literal? x with - | lit
  · exact (Lowers.fresh hx hk).canLower rfl
  · exact (Lowers.bound hx).canLower (Option.some.inj ((hs x lit hx).symm.trans hk))

theorem canLower_bits {op : BitOp} {w : Width} {lt rt : Term (.num (.integral w))}
    {s₁ s₂ : LoweringState} (hop : op = .shift .rightZero → w = .w32)
    (hl : Lowers s l ⟨_, lt⟩ s₁) (hr : Lowers s₁ r ⟨_, rt⟩ s₂) :
    s.CanLower (.bits op l r) (.num (.integral w)) := by
  cases op with
  | bitwise op => exact (Lowers.bitwise hl hr).canLower rfl
  | shift op => exact (Lowers.shift (fun h ↦ hop (congrArg BitOp.shift h)) hl hr).canLower rfl

theorem canLower_cast {target : Ty} {a : Kind} (he : e.ty ≠ target)
    (h : s.CanLower e a) (hk : target.castKind? a = some k) : s.CanLower (.cast target e) k := by
  obtain ⟨t, s', ht⟩ := h
  match target, a with
  | .num (.machine (.integral w)), .num n =>
    cases hk
    exact (Lowers.castInt (t := ⟨n, t⟩) he ht).canLower rfl
  | .num (.machine (.real w)), .num n =>
    cases hk
    exact (Lowers.castDouble (t := ⟨n, t⟩) he ht).canLower rfl

end LoweringState

namespace Expr

open LoweringState

/-- A call of a function with numeric arguments in the right number. -/
theorem canLower_call {name : String} {f : Builtin} {args : List Expr} {s : LoweringState}
    (hf : Builtin.ofName? name = some f) (hn : args.length = f.arity) (hs : s.WellKinded)
    (ha : ∀ e ∈ args, ∃ n, ∀ {s : LoweringState}, s.WellKinded → s.CanLower e (.num n)) :
    s.CanLower (.call name args) f.kind := by
  match f, args, hn with
  | .unary f, [e], _ =>
    obtain ⟨n, he⟩ := ha e (by simp)
    obtain ⟨t, s', ht⟩ := he hs
    exact (Lowers.unary (t := ⟨n, t⟩) hf ht).canLower rfl
  | .isNaN, [e], _ =>
    obtain ⟨n, he⟩ := ha e (by simp)
    obtain ⟨t, s', ht⟩ := he hs
    exact (Lowers.isNaN (t := ⟨n, t⟩) hf ht).canLower rfl
  | .binary f, [l, r], _ =>
    obtain ⟨n, hl⟩ := ha l (by simp)
    obtain ⟨m, hr⟩ := ha r (by simp)
    obtain ⟨lt, rt, s₁, s₂, hlt, hrt⟩ := (hl hs).operands hs hr
    have hl' : Lowers s l (NumTerm.toKinded ⟨n, lt⟩) s₁ := hlt
    have hr' : Lowers s₁ r (NumTerm.toKinded ⟨m, rt⟩) s₂ := hrt
    exact (Lowers.binary hf hl' hr').canLower rfl

/-- An expression with a kind can be lowered to a term of that kind. -/
theorem canLower_of_kind? {e : Expr} {k : Kind} (h : e.kind? = some k) {s : LoweringState}
    (hs : s.WellKinded) : s.CanLower e k := by
  induction e generalizing k s with
  | const v =>
    refine Lowers.const.canLower ?_
    rw [Lower.constant_kind]
    exact Option.some.inj h
  | var x => exact canLower_var hs h
  | not e ih =>
    obtain ⟨he, rfl⟩ := kind?_not_eq_some h
    obtain ⟨t, s', ht⟩ := ih he hs
    exact (Lowers.not ht).canLower rfl
  | neg e ih =>
    obtain ⟨n, he, rfl⟩ := kind?_neg_eq_some h
    obtain ⟨t, s', ht⟩ := ih he hs
    exact (Lowers.neg (t := ⟨n, t⟩) ht).canLower rfl
  | compare op l r ihl ihr =>
    obtain ⟨a, b, u, ha, hb, hu, rfl⟩ := kind?_compare_eq_some h
    obtain ⟨n, m, rfl, rfl, hu⟩ := Kind.unified?_eq_some hu
    obtain ⟨lt, rt, s₁, s₂, hl, hr⟩ := (ihl ha hs).operands hs (ihr hb)
    obtain ⟨p, hp, -⟩ := NumTerm.exists_unify (l := ⟨n, lt⟩) (r := ⟨m, rt⟩) hu
    exact (Lowers.compare hl hr hp).canLower rfl
  | arith op l r ihl ihr =>
    obtain ⟨a, b, u, ha, hb, hu, rfl⟩ := kind?_arith_eq_some h
    obtain ⟨n, m, rfl, rfl, hu⟩ := Kind.unified?_eq_some hu
    obtain ⟨lt, rt, s₁, s₂, hl, hr⟩ := (ihl ha hs).operands hs (ihr hb)
    obtain ⟨p, hp, rfl⟩ := NumTerm.exists_unify (l := ⟨n, lt⟩) (r := ⟨m, rt⟩) hu
    -- An operand that stays alone has been unified with the other one.
    exact (Lowers.arith hl hr hp).canLower (congrArg Kind.num Lower.soleOperand?_kind)
  | connect op l r ihl ihr =>
    cases op with
    | boolean op =>
      obtain ⟨ha, hb, rfl⟩ := kind?_boolean_eq_some h
      obtain ⟨lt, rt, s₁, s₂, hl, hr⟩ := (ihl ha hs).operands hs (ihr hb)
      exact (Lowers.logic hl hr).canLower rfl
    | iff => cases h
    | implies => cases h
  | bits op l r ihl ihr =>
    obtain ⟨w, ha, hb, rfl, hop⟩ := kind?_bits_word h
    obtain ⟨lt, rt, s₁, s₂, hl, hr⟩ := (ihl ha hs).operands hs (ihr hb)
    exact canLower_bits hop hl hr
  | cast target e ih =>
    rw [kind?] at h
    split at h
    · next he =>
      subst he
      obtain ⟨t, s', ht⟩ := ih h hs
      exact (Lowers.castNone ht).canLower rfl
    · next he =>
      obtain ⟨a, ha, hk⟩ := Option.bind_eq_some_iff.1 h
      exact canLower_cast he (ih ha hs) hk
  | call name args ih =>
    obtain ⟨f, hf, hn, ha, rfl⟩ := kind?_call_args h
    refine canLower_call hf hn hs fun e he ↦ ?_
    obtain ⟨n, hk⟩ := ha e he
    exact ⟨n, fun hs ↦ ih e he hk hs⟩

/-! ### The pass -/

/-- An expression can be lowered exactly if it has a kind, whatever the pass has lowered before,
and its term then has this kind. -/
theorem lower_ok_iff_kinded {s : LoweringState} (hs : s.Reachable) (e : Expr) :
    ((∃ t s', e.lower.run s = (.ok t, s')) ↔ ∃ k, e.kind? = some k) ∧
      ∀ t s', e.lower.run s = (.ok t, s') → e.kind? = some t.kind := by
  have hkind : ∀ t s', e.lower.run s = (.ok t, s') → e.kind? = some t.kind := by
    intro t s' h
    have hl := lowers_of_lower_run h
    exact hl.kind?_eq (hs.wellKinded.grows hl.grows).respects
  refine ⟨⟨?_, ?_⟩, hkind⟩
  · rintro ⟨t, s', h⟩
    exact ⟨t.kind, hkind t s' h⟩
  · rintro ⟨k, hk⟩
    obtain ⟨t, s', ht⟩ := canLower_of_kind? hk hs.wellKinded
    exact ⟨_, s', lower_run_of_lowers ht⟩

end Expr

namespace AfterFailure

/-! A pass that has failed to compare the narrow integer `i` with the boolean `b`, and has bound
both of them. -/

def i : Variable := ⟨"i", .int⟩

def b : Variable := ⟨"b", .bool⟩

def n : Variable := ⟨"n", .long⟩

def d : Variable := ⟨"d", .double⟩

def pass : LoweringState :=
  ((Expr.compare .lt (.var i) (.var b)).lower.run ⟨[], 3⟩).2

/-- The narrow integer can be shifted by a float that is cast to a narrow integer, but not by a
wide one. -/
theorem lower_ok_iff_kinded_shift :
    (∃ t s', (Expr.bits (.shift .rightZero) (.var i) (.cast .long (.var d))).lower.run pass =
      (.ok t, s')) ∧
    ¬ ∃ t s', (Expr.bits (.shift .rightZero) (.var i) (.var n)).lower.run pass = (.ok t, s') := by
  have hpass : pass.Reachable := .lower _ (.initial 3)
  refine ⟨(Expr.lower_ok_iff_kinded hpass _).1.2 ⟨.int, rfl⟩, fun h ↦ ?_⟩
  obtain ⟨k, hk⟩ := (Expr.lower_ok_iff_kinded hpass _).1.1 h
  cases hk

end AfterFailure

end ConstraintSearch

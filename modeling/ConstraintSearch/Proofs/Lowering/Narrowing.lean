import ConstraintSearch.Proofs.Formula.Operators
import ConstraintSearch.Proofs.Lowering.Agreement

/-!
# Narrowing integers

Where a wide integer meets a narrow one, source expressions go on in wide words and engine terms
in narrow ones. For expressions over integers without division nothing but the high bits is lost
by that: a term is never wider than the value of its expression, and its value is the narrow
part of that value. A term that is still wide is exact, and a comparison is right where both
values fit the width at which it is made.

The invariant is `Narrowed`. Every operator keeps it because wrapping at the narrow width
commutes with the operator, and because a number that is wrapped at a wider word first comes to
the same word.
-/

namespace ConstraintSearch

/-- Expressions over integers of both widths without division, in which no constant zero is the
minuend of a difference. -/
inductive IntegerExpr : Expr → Prop
  | const {w : Width} (a : Word w) : IntegerExpr (.const (.ofScalar ⟨.num (.integral w), a⟩))
  | var (name : String) (w : Width) : IntegerExpr (.var ⟨name, .num (.machine (.integral w))⟩)
  | neg {e} : IntegerExpr e → IntegerExpr (.neg e)
  | add {l r} : IntegerExpr l → IntegerExpr r → IntegerExpr (.arith .add l r)
  | sub {l r} : l.isMachineZero = false → IntegerExpr l → IntegerExpr r →
      IntegerExpr (.arith .sub l r)
  | mul {l r} : IntegerExpr l → IntegerExpr r → IntegerExpr (.arith .mul l r)
  | bitwise {op l r} : IntegerExpr l → IntegerExpr r → IntegerExpr (.bits (.bitwise op) l r)
  | cast {e} (w : Width) : IntegerExpr e → IntegerExpr (.cast (.num (.machine (.integral w))) e)

/-- The source evaluates to a word, and the term to the narrow part of it at some width. -/
def Narrowed (x : Except EvaluationError Value) (y : Except TermError Scalar) : Prop :=
  ∃ (v w : Width) (a : Word v), w.bits ≤ v.bits ∧ x = .ok (.ofScalar ⟨.num (.integral v), a⟩) ∧
    y = .ok ⟨.num (.integral w), Word.wrap w a.toInt⟩

variable {ν : Valuation} {σ : Assignment} {e l r : Expr} {n lt rt : NumTerm} {p : TermPair}

/-! ### Converted operands -/

/-- The term of a narrowed number is a word. -/
theorem Narrowed.exists_word {x : Except EvaluationError Value}
    (h : Narrowed x (n.toKinded.evaluate σ)) :
    ∃ (v w : Width) (a : Word v) (t : Term (.num (.integral w))), n = ⟨.integral w, t⟩ ∧
      w.bits ≤ v.bits ∧ x = .ok (.ofScalar ⟨.num (.integral v), a⟩) ∧
      t.evaluate σ = .ok (Word.wrap w a.toInt) := by
  obtain ⟨v, w, a, hw, hx, hy⟩ := h
  obtain ⟨k, t⟩ := n
  obtain ⟨b, hb, heq⟩ := KindedTerm.evaluate_eq_ok_iff.1 hy
  cases heq
  exact ⟨v, w, a, t, rfl, hw, hx, hb⟩

/-- Words of two widths are unified at the narrower one. -/
theorem NumKind.unified?_words (v w : Width) :
    ∃ u : Width, unified? (.integral v) (.integral w) = some (.integral u) ∧
      u.bits ≤ v.bits ∧ u.bits ≤ w.bits := by
  cases v
  · exact ⟨.w32, by cases w <;> rfl, le_rfl, by cases w <;> decide⟩
  · exact ⟨w, by cases w <;> rfl, by cases w <;> decide, le_rfl⟩

/-- Two words `a` and `b`, the values of `l` and `r`: they meet at the width `m`, and the terms
`lt` and `rt` hold their narrow parts at the width `u`. -/
structure NarrowedPair (ν : Valuation) (σ : Assignment) (l r : Expr) {u m v w : Width}
    (a : Word v) (b : Word w) (lt rt : Term (.num (.integral u))) : Prop where
  left : l.evaluate ν = .ok (.ofScalar ⟨.num (.integral v), a⟩)
  right : r.evaluate ν = .ok (.ofScalar ⟨.num (.integral w), b⟩)
  leftTerm : lt.evaluate σ = .ok (Word.wrap u a.toInt)
  rightTerm : rt.evaluate σ = .ok (Word.wrap u b.toInt)
  meetAt : NumKind.MeetAt (.integral v) (.integral w) (.integral m)
  left_le : v.bits ≤ m.bits
  right_le : w.bits ≤ m.bits
  le_left : u.bits ≤ v.bits
  le_right : u.bits ≤ w.bits

/-- The operands that unification makes of two narrowed numbers. -/
theorem exists_narrowedPair (hl : Narrowed (l.evaluate ν) (lt.toKinded.evaluate σ))
    (hr : Narrowed (r.evaluate ν) (rt.toKinded.evaluate σ)) (hp : lt.Unified rt p) :
    ∃ (u m v w : Width) (a : Word v) (b : Word w) (lt rt : Term (.num (.integral u))),
      p = ⟨.integral u, lt, rt⟩ ∧ NarrowedPair ν σ l r (m := m) a b lt rt := by
  obtain ⟨v, v', a, lt, rfl, hv, hlv, hlt⟩ := hl.exists_word
  obtain ⟨w, w', b, rt, rfl, hw, hrv, hrt⟩ := hr.exists_word
  obtain ⟨m, hm, hvm, hwm⟩ := NumKind.exists_meetAt_words v w
  obtain ⟨u, hu, huv, huw⟩ := NumKind.unified?_words v' w'
  obtain ⟨k, pl, pr⟩ := p
  obtain rfl : k = .integral u := Option.some.inj (hp.kind.symm.trans hu)
  refine ⟨u, m, v, w, a, b, pl, pr, rfl, ⟨hlv, hrv, ?_, ?_, hm, hvm, hwm, huv.trans hv,
    huw.trans hw⟩⟩
  · rw [hp.left.evaluate, hlt]
    exact congrArg Except.ok (Word.wrap_wrap huv _)
  · rw [hp.right.evaluate, hrt]
    exact congrArg Except.ok (Word.wrap_wrap huw _)

/-! ### Nodes -/

theorem narrowed_word {x : Except EvaluationError Value} {v w : Width} {a : Word v}
    {t : Term (.num (.integral w))} (hw : w.bits ≤ v.bits)
    (hx : x = .ok (.ofScalar ⟨.num (.integral v), a⟩))
    (ht : t.evaluate σ = .ok (Word.wrap w a.toInt)) :
    Narrowed x (KindedTerm.evaluate σ ⟨_, t⟩) :=
  ⟨v, w, a, hw, hx, KindedTerm.evaluate_eq_ok_iff.2 ⟨_, ht, rfl⟩⟩

theorem narrowed_neg (h : Narrowed (e.evaluate ν) (n.toKinded.evaluate σ)) :
    Narrowed ((Expr.neg e).evaluate ν) (KindedTerm.evaluate σ
      ⟨.num n.kind, .arith .mul n.term (.const (n.kind.ofInt (-1)))⟩) := by
  obtain ⟨v, w, a, t, rfl, hw, he, ht⟩ := h.exists_word
  refine narrowed_word (a := -a) hw ?_ ?_
  · rw [Expr.evaluate, he]
    rfl
  · have hz := NumKind.mul_neg_one (.integral w) (Word.wrap w a.toInt)
    rw [Word.wrap_neg hw]
    exact Term.evaluate_arith_of_ok ht (by rw [Term.evaluate]) hz

theorem narrowed_arith {op : ArithmeticOp} (hdiv : op ≠ .div) (hrem : op ≠ .rem)
    (hl : Narrowed (l.evaluate ν) (lt.toKinded.evaluate σ))
    (hr : Narrowed (r.evaluate ν) (rt.toKinded.evaluate σ)) (hp : lt.Unified rt p) :
    Narrowed ((Expr.arith op l r).evaluate ν) ((p.arith op).toKinded.evaluate σ) := by
  obtain ⟨u, m, v, w, a, b, lt, rt, rfl, h⟩ := exists_narrowedPair hl hr hp
  have hum : u.bits ≤ m.bits := h.le_left.trans h.left_le
  obtain ⟨c, hc, hcu⟩ :=
    Word.wrap_arithmetic? hdiv hrem hum (Word.wrap m a.toInt) (Word.wrap m b.toInt)
  rw [Word.wrap_wrap hum, Word.wrap_wrap hum] at hcu
  refine narrowed_word (a := c) hum ?_ ?_
  · rw [Expr.evaluate, h.left, h.right]
    show Value.arithmetic _ _ _ = _
    rw [Value.arithmetic_ofScalar h.meetAt]
    show (Word.arithmetic? op (Word.wrap m a.toInt) (Word.wrap m b.toInt)).elim _ _ = _
    rw [hc]
    rfl
  · exact Term.evaluate_arith_of_ok h.leftTerm h.rightTerm hcu

theorem narrowed_bitwise {op : BooleanOp} {u : Width} {lt rt : Term (.num (.integral u))}
    (hl : Narrowed (l.evaluate ν) (KindedTerm.evaluate σ ⟨_, lt⟩))
    (hr : Narrowed (r.evaluate ν) (KindedTerm.evaluate σ ⟨_, rt⟩)) :
    Narrowed ((Expr.bits (.bitwise op) l r).evaluate ν)
      (KindedTerm.evaluate σ ⟨_, .bitwise op lt rt⟩) := by
  have hp : NumTerm.Unified ⟨_, lt⟩ ⟨_, rt⟩ ⟨.integral u, lt, rt⟩ :=
    ⟨by cases u <;> rfl, NumTerm.convertsTo_self ⟨_, lt⟩, NumTerm.convertsTo_self ⟨_, rt⟩⟩
  have hl' : Narrowed (l.evaluate ν) (NumTerm.toKinded ⟨.integral u, lt⟩ |>.evaluate σ) := hl
  have hr' : Narrowed (r.evaluate ν) (NumTerm.toKinded ⟨.integral u, rt⟩ |>.evaluate σ) := hr
  obtain ⟨u, m, v, w, a, b, lt, rt, heq, h⟩ := exists_narrowedPair hl' hr' hp
  cases heq
  have hum : u.bits ≤ m.bits := h.le_left.trans h.left_le
  refine narrowed_word (a := op.onBits (Word.wrap m a.toInt) (Word.wrap m b.toInt)) hum ?_ ?_
  · rw [Expr.evaluate, h.left, h.right]
    exact Value.bitwise_ofScalar h.meetAt a b
  · rw [Term.evaluate, h.leftTerm, h.rightTerm, Word.wrap_onBits op hum, Word.wrap_wrap hum,
      Word.wrap_wrap hum]
    rfl

/-- A constant zero has the value zero. -/
theorem Expr.eq_zero_of_isMachineZero {v : Width} {a : Word v} (h : e.isMachineZero = true)
    (he : e.evaluate ν = .ok (.ofScalar ⟨.num (.integral v), a⟩)) : a = 0 := by
  cases e with
  | const c =>
    rw [evaluate] at he
    cases he
    exact beq_iff_eq.1 h
  | _ => cases h

/-- An operand that stays alone has the value of the sum or difference. -/
theorem evaluate_soleOperand {op : ArithmeticOp} {u m v w : Width} {a : Word v} {b : Word w}
    {lt rt : Term (.num (.integral u))} (hsub : op = .sub → l.isMachineZero = false)
    (h : NarrowedPair ν σ l r (m := m) a b lt rt) :
    ((Lower.soleOperand? op l r ⟨_, lt, rt⟩).getD (TermPair.arith op ⟨_, lt, rt⟩)).toKinded.evaluate
      σ = (TermPair.arith op ⟨_, lt, rt⟩).toKinded.evaluate σ := by
  have harith {z : Word u} (hz : Word.arithmetic? op (Word.wrap u a.toInt) (Word.wrap u b.toInt) =
      some z) : (Term.arith op lt rt).evaluate σ = .ok z :=
    Term.evaluate_arith_of_ok h.leftTerm h.rightTerm hz
  obtain hnone | ⟨hop, ⟨hl, hright⟩ | ⟨hr, hleft⟩⟩ := Lower.soleOperand?_cases op l r ⟨_, lt, rt⟩
  · rw [hnone]
    rfl
  · -- A zero at the left is left out of differences as well, where that would be wrong.
    obtain rfl := Expr.eq_zero_of_isMachineZero hl h.left
    obtain rfl : op = .add := hop.resolve_right fun hs ↦ by simp [hsub hs] at hl
    have hz := harith (z := Word.wrap u b.toInt) (by simp [Word.arithmetic?, Word.wrap])
    rw [hright]
    show KindedTerm.evaluate σ ⟨_, rt⟩ = KindedTerm.evaluate σ ⟨_, .arith .add lt rt⟩
    rw [KindedTerm.evaluate, KindedTerm.evaluate, h.rightTerm, hz]
  · obtain rfl := Expr.eq_zero_of_isMachineZero hr h.right
    have hz := harith (z := Word.wrap u a.toInt) (by
      rcases hop with rfl | rfl <;> simp [Word.arithmetic?, Word.wrap])
    rw [hleft]
    show KindedTerm.evaluate σ ⟨_, lt⟩ = KindedTerm.evaluate σ ⟨_, .arith op lt rt⟩
    rw [KindedTerm.evaluate, KindedTerm.evaluate, h.leftTerm, hz]

/-- A cast to a type that is at least as wide as the term. -/
theorem narrowed_cast_self {t : KindedTerm} {c : Width} (hc : t.kind = .long → c = .w64)
    (h : Narrowed (e.evaluate ν) (t.evaluate σ)) :
    Narrowed ((Expr.cast (.num (.machine (.integral c))) e).evaluate ν) (t.evaluate σ) := by
  obtain ⟨v, w, a, hw, he, ht⟩ := h
  have hwc : w.bits ≤ c.bits := by
    obtain ⟨_, -, heq⟩ := KindedTerm.evaluate_eq_ok_iff.1 ht
    have hk : t.kind = .num (.integral w) := congrArg Scalar.kind heq
    cases w
    · cases c <;> decide
    · rw [hc hk]
  refine ⟨c, w, Word.wrap c a.toInt, hwc, ?_, ?_⟩
  · exact Expr.evaluate_cast_of_ok (by simp) he
  · rw [ht, Word.wrap_wrap hwc]

/-- A cast that narrows the term. -/
theorem narrowed_cast {c : Width} (h : Narrowed (e.evaluate ν) (n.toKinded.evaluate σ)) :
    Narrowed ((Expr.cast (.num (.machine (.integral c))) e).evaluate ν)
      (KindedTerm.evaluate σ ⟨.int, n.intoInt⟩) := by
  obtain ⟨v, w, a, t, rfl, hw, he, ht⟩ := h.exists_word
  have h32 (w : Width) : Width.w32.bits ≤ w.bits := by cases w <;> decide
  refine narrowed_word (a := Word.wrap c a.toInt) (h32 c) ?_ ?_
  · exact Expr.evaluate_cast_of_ok (by simp) he
  · rw [(NumTerm.convertsTo_intoInt _).evaluate, ht, Word.wrap_wrap (h32 c)]
    exact congrArg Except.ok (Word.wrap_wrap (h32 w) _)

theorem narrowed_var {s : LoweringState} {name : String} {w : Width} {l : Literal}
    (h : Agrees ν σ s ⟨name, .num (.machine (.integral w))⟩)
    (hl : s.literal? ⟨name, .num (.machine (.integral w))⟩ = some l) :
    Narrowed ((Expr.var ⟨name, .num (.machine (.integral w))⟩).evaluate ν)
      (l.toTerm.evaluate σ) := by
  obtain ⟨id, k⟩ := l
  obtain ⟨a, hx, hk, ha⟩ := h.exists_carrier hl
  obtain rfl : k = .num (.integral w) := by
    have hty := congrArg Ty.kind? hk
    rw [Ty.kind?_ofKind] at hty
    exact Option.some.inj hty
  refine narrowed_word (a := a) le_rfl ?_ ?_
  · rw [Expr.evaluate, hx]
  · rw [Term.evaluate, ha, Word.wrap_toInt]

/-! ### Whole expressions -/

theorem IntegerExpr.of_cast {target : Ty} (h : IntegerExpr (.cast target e)) :
    ∃ w, target = .num (.machine (.integral w)) ∧ IntegerExpr e := by
  cases h with
  | cast w he => exact ⟨w, rfl, he⟩

/-- What an arithmetic operator in such an expression is. -/
theorem IntegerExpr.of_arith {op : ArithmeticOp} (h : IntegerExpr (.arith op l r)) :
    op ≠ .div ∧ op ≠ .rem ∧ (op = .sub → l.isMachineZero = false) ∧ IntegerExpr l ∧
      IntegerExpr r := by
  cases h with
  | add hl hr => exact ⟨by simp, by simp, by simp, hl, hr⟩
  | sub hz hl hr => exact ⟨by simp, by simp, fun _ ↦ hz, hl, hr⟩
  | mul hl hr => exact ⟨by simp, by simp, by simp, hl, hr⟩

theorem Lowers.narrowed {s s' : LoweringState} {t : KindedTerm} (h : Lowers s e t s')
    (hi : IntegerExpr e) (ha : ∀ x ∈ e.vars, Agrees ν σ s' x) :
    Narrowed (e.evaluate ν) (t.evaluate σ) := by
  induction h with
  | const =>
    cases hi with
    | const a => exact narrowed_word le_rfl rfl (by rw [Word.wrap_toInt]; rfl)
  | bound hx =>
    cases hi with
    | var name w => exact narrowed_var (ha _ (by simp [Expr.vars])) hx
  | @fresh s x k hx hk =>
    cases hi with
    | var name w =>
      exact narrowed_var (l := ⟨s.next, k⟩) (ha _ (by simp [Expr.vars]))
        (LoweringState.literal?_extend_self hx)
  | neg _ ih =>
    cases hi with
    | neg he => exact narrowed_neg (ih he ha)
  | arith hl hr hp ihl ihr =>
    obtain ⟨hdiv, hrem, hsub, hli, hri⟩ := hi.of_arith
    obtain ⟨hla, hra⟩ := Agrees.operands ha hr
    have hp := NumTerm.unified_of_unify hp
    have hln := ihl hli hla
    have hrn := ihr hri hra
    obtain ⟨u, m, v, w, a, b, lt, rt, rfl, hpair⟩ := exists_narrowedPair hln hrn hp
    rw [evaluate_soleOperand hsub hpair]
    exact narrowed_arith hdiv hrem hln hrn hp
  | bitwise hl hr ihl ihr =>
    obtain ⟨hla, hra⟩ := Agrees.operands ha hr
    cases hi with
    | bitwise hli hri => exact narrowed_bitwise (ihl hli hla) (ihr hri hra)
  | @castNone _ e t _ he ih =>
    obtain ⟨c, hc, hi⟩ := hi.of_cast
    have hk := he.kind?_eq (respects_of_agrees ha)
    have hlong : t.kind = .long → c = .w64 := by
      intro hlong
      have hty := Expr.ty_eq_of_kind? hk (by simp [Kind.Preserved, hlong])
      rw [hc, hlong] at hty
      cases hty
      rfl
    rw [hc]
    exact narrowed_cast_self hlong (ih hi ha)
  | castInt _ _ ih =>
    obtain ⟨-, -, hi⟩ := hi.of_cast
    exact narrowed_cast (ih hi ha)
  | castDouble =>
    obtain ⟨c, hc, -⟩ := hi.of_cast
    cases hc
  | not | compare | logic | shift | unary | binary | isNaN => cases hi

/-! ### Comparisons -/

/-- Words that fit the width at which their narrow parts are compared are compared as they
are. -/
theorem NarrowedPair.comparison (op : Comparison) {u m v w : Width} {a : Word v} {b : Word w}
    {lt rt : Term (.num (.integral u))} (h : NarrowedPair ν σ l r (m := m) a b lt rt)
    (ha : Word.Fits u a.toInt) (hb : Word.Fits u b.toInt) :
    ∃ c, (Expr.compare op l r).evaluate ν = .ok (.ofBool c) ∧
      (Term.compare op lt rt).evaluate σ = .ok c := by
  have horder {w : Width} (ha : Word.Fits w a.toInt) (hb : Word.Fits w b.toInt) :
      Word.order (Word.wrap w a.toInt) (Word.wrap w b.toInt) = compare a.toInt b.toInt := by
    rw [Word.order, Word.toInt_wrap_of_fits ha, Word.toInt_wrap_of_fits hb]
  refine ⟨op.holds (some (compare a.toInt b.toInt)), ?_, ?_⟩
  · rw [Expr.evaluate_compare_of_ok h.meetAt h.left h.right,
      ← horder ((Word.fits_toInt a).mono h.left_le) ((Word.fits_toInt b).mono h.right_le)]
    rfl
  · rw [Term.evaluate, h.leftTerm, h.rightTerm, ← horder ha hb]
    rfl

/-! ### The pass -/

/-- Narrowing loses exactly the high bits. An expression and its term both have a value: a wide
term has the value of the expression, and a narrow one the signed 32-bit number congruent to it.
So a comparison of two such expressions is right whenever both values fit the kind at which its
operands are unified. -/
theorem Expr.lower_narrows {s s' : LoweringState} :
    (∀ {e t}, IntegerExpr e → e.lower.run s = (.ok t, s') →
      (∀ x ∈ e.vars, Agrees ν σ s' x) →
      (∃ a : Word .w64, t.kind = .long ∧ e.evaluate ν = .ok (.ofScalar ⟨.long, a⟩) ∧
        t.evaluate σ = .ok ⟨.long, a⟩) ∨
      ∃ (v : Width) (a : Word v) (b : Word .w32), t.kind = .int ∧
        e.evaluate ν = .ok (.ofScalar ⟨.num (.integral v), a⟩) ∧ t.evaluate σ = .ok ⟨.int, b⟩ ∧
        b.toInt ≡ a.toInt [ZMOD 2 ^ 32]) ∧
    ∀ {op l r t}, IntegerExpr l → IntegerExpr r →
      (Expr.compare op l r).lower.run s = (.ok t, s') →
      (∀ x ∈ (Expr.compare op l r).vars, Agrees ν σ s' x) →
      ∃ (u v w : Width) (a : Word v) (b : Word w) (lt rt : Term (.num (.integral u))),
        t = Lower.ofBool (.compare op lt rt) ∧
        l.evaluate ν = .ok (.ofScalar ⟨.num (.integral v), a⟩) ∧
        r.evaluate ν = .ok (.ofScalar ⟨.num (.integral w), b⟩) ∧
        (Word.Fits u a.toInt → Word.Fits u b.toInt →
          ∃ c, (Expr.compare op l r).evaluate ν = .ok (.ofBool c) ∧
            t.evaluate σ = .ok ⟨.bool, c⟩) := by
  constructor
  · intro e t hi h ha
    obtain ⟨v, w, a, hw, he, ht⟩ := (lowers_of_lower_run h).narrowed hi ha
    have hk : t.kind = .num (.integral w) := by
      obtain ⟨_, -, heq⟩ := KindedTerm.evaluate_eq_ok_iff.1 ht
      exact congrArg Scalar.kind heq
    cases w with
    | w32 => exact .inr ⟨v, a, _, hk, he, ht, Word.toInt_wrap_modEq _⟩
    | w64 =>
      obtain rfl : v = .w64 := by cases v <;> simp [Width.bits] at hw ⊢
      rw [Word.wrap_toInt] at ht
      exact .inl ⟨a, hk, he, ht⟩
  · intro op l r t hli hri h ha
    cases lowers_of_lower_run h with
    | compare hl hr hp =>
      obtain ⟨hla, hra⟩ := Agrees.operands ha hr
      obtain ⟨u, m, v, w, a, b, lt, rt, rfl, hpair⟩ := exists_narrowedPair (hl.narrowed hli hla)
        (hr.narrowed hri hra) (NumTerm.unified_of_unify hp)
      refine ⟨u, v, w, a, b, lt, rt, rfl, hpair.left, hpair.right, fun hau hbu ↦ ?_⟩
      obtain ⟨c, hc, ht⟩ := hpair.comparison op hau hbu
      exact ⟨c, hc, KindedTerm.evaluate_eq_ok_iff.2 ⟨c, ht, rfl⟩⟩

namespace Narrowing

/-! A wide `x` and a narrow `y`, with their values and their literals. -/

def x : Variable := ⟨"x", .long⟩

def y : Variable := ⟨"y", .int⟩

def valuation (a : Word .w64) (b : Word .w32) : Valuation :=
  ⟨[(x, .ofScalar ⟨.long, a⟩), (y, .ofScalar ⟨.int, b⟩)]⟩

def assignment (a : Word .w64) (b : Word .w32) : Assignment :=
  ⟨[(0, ⟨.long, a⟩), (1, ⟨.int, b⟩)]⟩

def sum : Expr := .arith .add (.var x) (.var y)

def sumTerm : Term .int := .arith .add (.toInt (n := .long) (.lit 0)) (.lit 1)

theorem integerExpr_sum : IntegerExpr sum :=
  .add (.var "x" .w64) (.var "y" .w32)

theorem agrees (a : Word .w64) (b : Word .w32) (z : Variable) (hz : z = x ∨ z = y) :
    Agrees (valuation a b) (assignment a b) ⟨[⟨x, ⟨0, .long⟩⟩, ⟨y, ⟨1, .int⟩⟩], 2⟩ z := by
  rcases hz with rfl | rfl
  · refine agrees_of_literal? (a := ⟨.long, a⟩) rfl rfl rfl ?_
    exact congrArg (fun c : Word .w64 ↦ (.ok ⟨.long, c⟩ : Except TermError Scalar))
      (Word.wrap_toInt a)
  · refine agrees_of_literal? (a := ⟨.int, b⟩) rfl rfl rfl ?_
    exact congrArg (fun c : Word .w32 ↦ (.ok ⟨.int, c⟩ : Except TermError Scalar))
      (Word.wrap_toInt b)

/-- The sum of `2 ^ 33 + 5` and `-7` loses its high bit, and that of `3` and `-7` is compared
rightly. -/
theorem lower_narrows_sum :
    (∃ (v : Width) (a : Word v) (b : Word .w32),
      sum.evaluate (valuation 0x200000005 (-7)) = .ok (.ofScalar ⟨.num (.integral v), a⟩) ∧
      KindedTerm.evaluate (assignment 0x200000005 (-7)) ⟨.int, sumTerm⟩ = .ok ⟨.int, b⟩ ∧
      b.toInt ≡ a.toInt [ZMOD 2 ^ 32]) ∧
    ∃ c, (Expr.compare .lt sum (.var y)).evaluate (valuation 3 (-7)) = .ok (.ofBool c) ∧
      KindedTerm.evaluate (assignment 3 (-7)) ⟨.bool, .compare .lt sumTerm (.lit 1)⟩ =
        .ok ⟨.bool, c⟩ := by
  constructor
  · obtain ⟨a, hk, -⟩ | ⟨v, a, b, -, ha, hb, hab⟩ :=
      (Expr.lower_narrows (s := ⟨[], 0⟩)).1 integerExpr_sum rfl
        fun z hz ↦ agrees 0x200000005 (-7) z (by simpa [sum, Expr.vars] using hz)
    · cases hk
    · exact ⟨v, a, b, ha, hb, hab⟩
  · have hsum : sum.evaluate (valuation 3 (-7)) = .ok (.ofScalar ⟨.long, (-4 : Word .w64)⟩) := rfl
    have hy : (Expr.var y).evaluate (valuation 3 (-7)) =
        .ok (.ofScalar ⟨.int, (-7 : Word .w32)⟩) := rfl
    obtain ⟨u, v, w, a, b, lt, rt, ht, ha, hb, h⟩ :=
      (Expr.lower_narrows (s := ⟨[], 0⟩)).2 (t := ⟨.bool, .compare .lt sumTerm (.lit 1)⟩)
        integerExpr_sum (show IntegerExpr (.var y) from .var "y" .w32) rfl
        fun z hz ↦ agrees 3 (-7) z (by simpa [sum, Expr.vars, or_assoc] using hz)
    cases ht
    cases Value.ofScalar_injective (Except.ok.inj (hsum.symm.trans ha))
    cases Value.ofScalar_injective (Except.ok.inj (hy.symm.trans hb))
    exact h (by decide) (by decide)

end Narrowing

end ConstraintSearch

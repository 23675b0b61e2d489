import ConstraintSearch.Proofs.Formula.Nodes
import ConstraintSearch.Proofs.Lowering.States

/-!
# Derivations of lowering

Successful lowering as a relation. `Lowers s e t s'` says that from the state `s` the
expression `e` is lowered to the term `t`, and that the state is `s'` afterwards; it has one
rule for every way in which a node can be lowered. What is shown of lowering is shown by
induction on derivations, without the monad of the lowering pass: `lower_run_iff` says that
the relation and the pass agree.
-/

namespace ConstraintSearch

namespace Lower

variable {α β : Type} {s s' : LoweringState}

/-! ### Running steps of a pass -/

theorem run_pure_iff {a b : α} :
    (pure a : Lower α).run s = (.ok b, s') ↔ a = b ∧ s = s' := by
  show ((Except.ok a, s) : Except LoweringError α × LoweringState) = _ ↔ _
  simp

theorem run_throw_iff {e : LoweringError} {a : α} :
    (throw e : Lower α).run s = (.ok a, s') ↔ False := by
  show ((Except.error e, s) : Except LoweringError α × LoweringState) = _ ↔ _
  simp

theorem run_get_bind {f : LoweringState → Lower β} :
    (get >>= f).run s = (f s).run s :=
  rfl

theorem run_require_iff {x : Except LoweringError α} {a : α} :
    (require x).run s = (.ok a, s') ↔ x = .ok a ∧ s = s' := by
  cases x <;> simp [require, run_pure_iff, run_throw_iff]

/-- A sequence of two steps succeeds exactly when both steps do. -/
theorem run_bind_iff {m : Lower α} {f : α → Lower β} {b : β} :
    (m >>= f).run s = (.ok b, s') ↔
      ∃ a s₁, m.run s = (.ok a, s₁) ∧ (f a).run s₁ = (.ok b, s') := by
  unfold run
  rw [EStateM.run_bind]
  rcases EStateM.run m s with ⟨a, s₁⟩ | ⟨e, s₁⟩
  · constructor
    · intro h
      exact ⟨a, s₁, rfl, h⟩
    · rintro ⟨_, _, ⟨rfl, rfl⟩, h⟩
      exact h
  · simp

theorem expectBool_ok_iff {t : KindedTerm} {b : Term .bool} :
    expectBool t = .ok b ↔ t = ofBool b := by
  obtain ⟨- | n, t⟩ := t <;> simp [expectBool, ofBool]

theorem expectNum_ok_iff {t : KindedTerm} {n : NumTerm} :
    expectNum t = .ok n ↔ t = n.toKinded := by
  obtain ⟨- | k, t⟩ := t <;> obtain ⟨m, u⟩ := n <;> simp [expectNum, NumTerm.toKinded]

/-- A step that has to give a boolean, followed by another step. -/
theorem run_expectBool_iff {m : Lower KindedTerm} {f : Term .bool → Lower β} {b : β} :
    (m >>= fun u ↦ require (expectBool u) >>= f).run s = (.ok b, s') ↔
      ∃ t s₁, m.run s = (.ok (ofBool t), s₁) ∧ (f t).run s₁ = (.ok b, s') := by
  simp only [run_bind_iff, run_require_iff, expectBool_ok_iff]
  constructor
  · rintro ⟨_, s₁, hm, t, _, ⟨rfl, rfl⟩, hf⟩
    exact ⟨t, s₁, hm, hf⟩
  · rintro ⟨t, s₁, hm, hf⟩
    exact ⟨_, s₁, hm, t, s₁, ⟨rfl, rfl⟩, hf⟩

/-- A step that has to give a number, followed by another step. -/
theorem run_expectNum_iff {m : Lower KindedTerm} {f : NumTerm → Lower β} {b : β} :
    (m >>= fun u ↦ require (expectNum u) >>= f).run s = (.ok b, s') ↔
      ∃ t s₁, m.run s = (.ok t.toKinded, s₁) ∧ (f t).run s₁ = (.ok b, s') := by
  simp only [run_bind_iff, run_require_iff, expectNum_ok_iff]
  constructor
  · rintro ⟨_, s₁, hm, t, _, ⟨rfl, rfl⟩, hf⟩
    exact ⟨t, s₁, hm, hf⟩
  · rintro ⟨t, s₁, hm, hf⟩
    exact ⟨_, s₁, hm, t, s₁, ⟨rfl, rfl⟩, hf⟩

/-! ### Building nodes -/

theorem negationTerm_eq (t : NumTerm) :
    negationTerm t =
      .ok ⟨.num t.kind, .arith .mul t.term (.const (t.kind.ofInt (-1)))⟩ := by
  obtain ⟨(- | -) | (- | -), t⟩ := t <;> rfl

theorem comparisonTerm_ok_iff {op : Comparison} {l r : NumTerm} {t : KindedTerm} :
    comparisonTerm op l r = .ok t ↔ ∃ p, l.unify r = .ok p ∧ ofBool (p.compare op) = t := by
  unfold comparisonTerm
  rcases l.unify r with e | p
  · show (Except.error e = _) ↔ _
    simp
  · show (Except.ok (ofBool (p.compare op)) = _) ↔ _
    simp

theorem arithmeticTerm_ok_iff {op : ArithmeticOp} {l r : Expr} {lt rt : NumTerm}
    {t : KindedTerm} :
    arithmeticTerm op l r lt rt = .ok t ↔
      ∃ p, lt.unify rt = .ok p ∧ ((soleOperand? op l r p).getD (p.arith op)).toKinded = t := by
  unfold arithmeticTerm
  rcases lt.unify rt with e | p
  · show (Except.error e = _) ↔ _
    simp
  · show (Except.ok ((soleOperand? op l r p).getD (p.arith op)).toKinded = _) ↔ _
    simp

/-- An operand stays alone only where a constant zero is added or subtracted. -/
theorem soleOperand?_cases (op : ArithmeticOp) (l r : Expr) (p : TermPair) :
    soleOperand? op l r p = none ∨ (op = .add ∨ op = .sub) ∧
      (l.isMachineZero ∧ soleOperand? op l r p = some p.rightTerm ∨
        r.isMachineZero ∧ soleOperand? op l r p = some p.leftTerm) := by
  unfold soleOperand?
  split
  · next hop =>
    split
    · next hl => exact .inr ⟨hop, .inl ⟨hl, rfl⟩⟩
    · split
      · next hr => exact .inr ⟨hop, .inr ⟨hr, rfl⟩⟩
      · exact .inl rfl
  · exact .inl rfl

/-- An operator on bits needs two words of one width. -/
theorem bitsTerm_bitwise_ok_iff {op : BooleanOp} {l r : NumTerm} {t : KindedTerm} :
    bitsTerm (.bitwise op) l r = .ok t ↔
      ∃ (w : Width) (lt rt : Term (.num (.integral w))),
        l = ⟨_, lt⟩ ∧ r = ⟨_, rt⟩ ∧ t = ⟨_, .bitwise op lt rt⟩ := by
  constructor
  · obtain ⟨v | v, l⟩ := l <;> obtain ⟨w | w, r⟩ := r
    · intro h
      unfold bitsTerm at h
      by_cases hvw : v = w
      · subst hvw
        exact ⟨v, l, r, rfl, rfl, by simpa using h.symm⟩
      · simp [hvw] at h
    all_goals simp [bitsTerm]
  · rintro ⟨w, lt, rt, rfl, rfl, rfl⟩
    simp [bitsTerm]

/-- A shift needs two words of one width at which it exists. -/
theorem bitsTerm_shift_ok_iff {op : ShiftOp} {l r : NumTerm} {t : KindedTerm} :
    bitsTerm (.shift op) l r = .ok t ↔
      ∃ (w : Width) (h : op.ExistsAt w) (lt rt : Term (.num (.integral w))),
        l = ⟨_, lt⟩ ∧ r = ⟨_, rt⟩ ∧ t = ⟨_, .shift op h lt rt⟩ := by
  constructor
  · obtain ⟨v | v, l⟩ := l <;> obtain ⟨w | w, r⟩ := r
    · intro h
      unfold bitsTerm at h
      by_cases hvw : v = w
      · subst hvw
        by_cases hop : op.ExistsAt v
        · exact ⟨v, hop, l, r, rfl, rfl, by simpa [hop] using h.symm⟩
        · simp [hop] at h
      · simp [hvw] at h
    all_goals simp [bitsTerm]
  · rintro ⟨w, hop, lt, rt, rfl, rfl, rfl⟩
    simp [bitsTerm, hop]

end Lower

/-! ### The relation -/

open Lower

/-- `Lowers s e t s'`: from the state `s` the expression `e` is lowered to `t`, and the state is
`s'` afterwards. -/
inductive Lowers : LoweringState → Expr → KindedTerm → LoweringState → Prop
  | const {s v} : Lowers s (.const v) (constant v) s
  | bound {s x l} : s.literal? x = some l → Lowers s (.var x) l.toTerm s
  | fresh {s x k} : s.literal? x = none → x.ty.kind? = some k →
      Lowers s (.var x) ⟨k, .lit s.next⟩ (s.extend x k)
  | not {s e t s'} : Lowers s e (ofBool t) s' → Lowers s (.not e) (ofBool (.not t)) s'
  | neg {s e s'} {t : NumTerm} : Lowers s e t.toKinded s' →
      Lowers s (.neg e) ⟨.num t.kind, .arith .mul t.term (.const (t.kind.ofInt (-1)))⟩ s'
  | compare {s l r s₁ s₂ op} {lt rt : NumTerm} {p : TermPair} : Lowers s l lt.toKinded s₁ →
      Lowers s₁ r rt.toKinded s₂ → lt.unify rt = .ok p →
      Lowers s (.compare op l r) (ofBool (p.compare op)) s₂
  | arith {s l r s₁ s₂ op} {lt rt : NumTerm} {p : TermPair} : Lowers s l lt.toKinded s₁ →
      Lowers s₁ r rt.toKinded s₂ → lt.unify rt = .ok p →
      Lowers s (.arith op l r) ((soleOperand? op l r p).getD (p.arith op)).toKinded s₂
  | logic {s l r s₁ s₂ op lt rt} : Lowers s l (ofBool lt) s₁ → Lowers s₁ r (ofBool rt) s₂ →
      Lowers s (.connect (.boolean op) l r) (ofBool (.logic op lt rt)) s₂
  | bitwise {s l r s₁ s₂ op w} {lt rt : Term (.num (.integral w))} : Lowers s l ⟨_, lt⟩ s₁ →
      Lowers s₁ r ⟨_, rt⟩ s₂ →
      Lowers s (.bits (.bitwise op) l r) ⟨_, .bitwise op lt rt⟩ s₂
  | shift {s l r s₁ s₂ op w} {lt rt : Term (.num (.integral w))} (h : op.ExistsAt w) :
      Lowers s l ⟨_, lt⟩ s₁ → Lowers s₁ r ⟨_, rt⟩ s₂ →
      Lowers s (.bits (.shift op) l r) ⟨_, .shift op h lt rt⟩ s₂
  | castNone {s e t s'} : Lowers s e t s' → Lowers s (.cast e.ty e) t s'
  | castInt {s e s' w} {t : NumTerm} : e.ty ≠ .num (.machine (.integral w)) →
      Lowers s e t.toKinded s' →
      Lowers s (.cast (.num (.machine (.integral w))) e) ⟨.int, t.intoInt⟩ s'
  | castDouble {s e s' w} {t : NumTerm} : e.ty ≠ .num (.machine (.real w)) →
      Lowers s e t.toKinded s' →
      Lowers s (.cast (.num (.machine (.real w))) e) ⟨.double, t.intoDouble⟩ s'
  | unary {s e s' name f} {t : NumTerm} : Builtin.ofName? name = some (.unary f) →
      Lowers s e t.toKinded s' → Lowers s (.call name [e]) ⟨.double, .apply f t.intoDouble⟩ s'
  | binary {s l r s₁ s₂ name f} {lt rt : NumTerm} : Builtin.ofName? name = some (.binary f) →
      Lowers s l lt.toKinded s₁ → Lowers s₁ r rt.toKinded s₂ →
      Lowers s (.call name [l, r]) ⟨.double, .apply₂ f lt.intoDouble rt.intoDouble⟩ s₂
  | isNaN {s e s' name} {t : NumTerm} : Builtin.ofName? name = some .isNaN →
      Lowers s e t.toKinded s' →
      Lowers s (.call name [e]) (ofBool (.compare .ne t.intoDouble t.intoDouble)) s'

/-! ### The relation and the pass agree -/

namespace Expr

variable {s s' : LoweringState} {t : KindedTerm} {e l r : Expr}

/-- A bound variable keeps its literal, and any other one is bound to the next literal of its
kind. -/
theorem run_bind_var_iff {x : Variable} {l : Literal} :
    (Lower.bind x).run s = (.ok l, s') ↔
      (s.literal? x = some l ∧ s = s') ∨
      ∃ k, s.literal? x = none ∧ x.ty.kind? = some k ∧ ⟨s.next, k⟩ = l ∧ s.extend x k = s' := by
  unfold Lower.bind
  rw [run_get_bind]
  rcases s.literal? x with - | l'
  · rcases x.ty.kind? with - | k
    · simp [run_throw_iff]
    · show ((Except.ok ⟨s.next, k⟩, s.extend x k) :
        Except LoweringError Literal × LoweringState) = _ ↔ _
      simp
  · simp [run_pure_iff]

theorem lower_var_run_iff {x : Variable} :
    (Expr.var x).lower.run s = (.ok t, s') ↔
      ∃ l, (Lower.bind x).run s = (.ok l, s') ∧ l.toTerm = t := by
  rw [lower, run_bind_iff]
  simp only [run_pure_iff]
  constructor
  · rintro ⟨l, _, h, rfl, rfl⟩
    exact ⟨l, h, rfl⟩
  · rintro ⟨l, h, rfl⟩
    exact ⟨l, s', h, rfl, rfl⟩

theorem lower_not_run_iff :
    (Expr.not e).lower.run s = (.ok t, s') ↔
      ∃ b, e.lower.run s = (.ok (ofBool b), s') ∧ ofBool (.not b) = t := by
  rw [lower, run_expectBool_iff]
  simp only [run_pure_iff]
  constructor
  · rintro ⟨b, _, h, rfl, rfl⟩
    exact ⟨b, h, rfl⟩
  · rintro ⟨b, h, rfl⟩
    exact ⟨b, s', h, rfl, rfl⟩

theorem lower_neg_run_iff :
    (Expr.neg e).lower.run s = (.ok t, s') ↔
      ∃ n : NumTerm, e.lower.run s = (.ok n.toKinded, s') ∧
        ⟨.num n.kind, .arith .mul n.term (.const (n.kind.ofInt (-1)))⟩ = t := by
  rw [lower, run_expectNum_iff]
  simp only [run_require_iff, negationTerm_eq, Except.ok.injEq]
  constructor
  · rintro ⟨n, _, h, rfl, rfl⟩
    exact ⟨n, h, rfl⟩
  · rintro ⟨n, h, rfl⟩
    exact ⟨n, s', h, rfl, rfl⟩

/-- Two numbers are lowered from left to right, and then a step that binds nothing. -/
theorem run_expectNums_iff {f : NumTerm → NumTerm → Except LoweringError KindedTerm} :
    (l.lower >>= fun u ↦ require (expectNum u) >>= fun lt ↦
      r.lower >>= fun v ↦ require (expectNum v) >>= fun rt ↦ require (f lt rt)).run s =
        (.ok t, s') ↔
      ∃ lt rt s₁, l.lower.run s = (.ok lt.toKinded, s₁) ∧
        r.lower.run s₁ = (.ok rt.toKinded, s') ∧ f lt rt = .ok t := by
  simp only [run_expectNum_iff, run_require_iff]
  constructor
  · rintro ⟨lt, s₁, hl, rt, _, hr, hf, rfl⟩
    exact ⟨lt, rt, s₁, hl, hr, hf⟩
  · rintro ⟨lt, rt, s₁, hl, hr, hf⟩
    exact ⟨lt, s₁, hl, rt, s', hr, hf, rfl⟩

theorem lower_logic_run_iff {op : BooleanOp} :
    (Expr.connect (.boolean op) l r).lower.run s = (.ok t, s') ↔
      ∃ lt rt s₁, l.lower.run s = (.ok (ofBool lt), s₁) ∧
        r.lower.run s₁ = (.ok (ofBool rt), s') ∧ ofBool (.logic op lt rt) = t := by
  rw [lower]
  simp only [run_expectBool_iff, run_pure_iff]
  constructor
  · rintro ⟨lt, s₁, hl, rt, _, hr, rfl, rfl⟩
    exact ⟨lt, rt, s₁, hl, hr, rfl⟩
  · rintro ⟨lt, rt, s₁, hl, hr, rfl⟩
    exact ⟨lt, s₁, hl, rt, s', hr, rfl, rfl⟩

/-- A cast to the declared type of its operand is left out. -/
theorem lower_cast_self : (Expr.cast e.ty e).lower = e.lower := by
  conv => lhs; unfold lower
  exact if_pos rfl

/-- Of a cast to a machine type that is not the declared type of the operand. -/
theorem lower_cast_run_iff {k : NumKind} (h : e.ty ≠ .num (.machine k)) :
    (Expr.cast (.num (.machine k)) e).lower.run s = (.ok t, s') ↔
      ∃ n : NumTerm, e.lower.run s = (.ok n.toKinded, s') ∧
        (if k.isIntegral then ⟨.int, n.intoInt⟩ else ⟨.double, n.intoDouble⟩) = t := by
  conv => lhs; unfold lower
  rw [if_neg h]
  show (e.lower >>= fun u ↦ require (castTerm e.ty (.num (.machine k)) k u)).run s = _ ↔ _
  simp only [run_bind_iff, run_require_iff]
  constructor
  · rintro ⟨⟨- | n, u⟩, _, he, hc, rfl⟩
    · cases hc
    · refine ⟨⟨n, u⟩, he, ?_⟩
      cases hk : k.isIntegral <;> simpa [castTerm, hk] using hc
  · rintro ⟨n, he, rfl⟩
    refine ⟨_, _, he, ?_, rfl⟩
    cases hk : k.isIntegral <;> simp [NumTerm.toKinded, castTerm, hk]

/-- A type of no machine number is cast to from that type only. -/
theorem lower_cast_run_ne {target : Ty} (ht : ∀ k, target ≠ .num (.machine k))
    (h : e.ty ≠ target) : (Expr.cast target e).lower.run s ≠ (.ok t, s') := by
  unfold lower
  rw [if_neg h]
  split
  · exact (ht _ rfl).elim
  · exact fun h ↦ run_throw_iff.1 h

theorem lowerAll_cons_run_iff {es : List Expr} {ts : List (Term .double)} :
    (lowerAll (e :: es)).run s = (.ok ts, s') ↔
      ∃ (n : NumTerm) (us : List (Term .double)) (s₁ : LoweringState),
        e.lower.run s = (.ok n.toKinded, s₁) ∧ (lowerAll es).run s₁ = (.ok us, s') ∧
          n.intoDouble :: us = ts := by
  rw [lowerAll, run_expectNum_iff]
  simp only [run_bind_iff, run_pure_iff]
  constructor
  · rintro ⟨n, s₁, he, us, _, hes, rfl, rfl⟩
    exact ⟨n, us, s₁, he, hes, rfl⟩
  · rintro ⟨n, us, s₁, he, hes, rfl⟩
    exact ⟨n, s₁, he, us, s', hes, rfl, rfl⟩

theorem lowerAll_nil_run_iff {ts : List (Term .double)} :
    (lowerAll []).run s = (.ok ts, s') ↔ [] = ts ∧ s = s' := by
  rw [lowerAll, run_pure_iff]

theorem lower_call_run_iff {name : String} {args : List Expr} :
    (Expr.call name args).lower.run s = (.ok t, s') ↔
      ∃ f ts, Builtin.ofName? name = some f ∧ args.length = f.arity ∧
        (lowerAll args).run s = (.ok ts, s') ∧ application? f ts = some t := by
  conv => lhs; unfold lower
  rcases Builtin.ofName? name with - | f
  · simp [run_throw_iff]
  · by_cases hn : args.length = f.arity
    · show (if _ then _ >>= _ else _ : Lower KindedTerm).run _ = _ ↔ _
      rw [if_pos hn, run_bind_iff]
      constructor
      · rintro ⟨ts, s₁, hts, h⟩
        rcases hf : application? f ts with - | u
        · rw [hf, run_throw_iff] at h
          exact h.elim
        · rw [hf, run_pure_iff] at h
          obtain ⟨rfl, rfl⟩ := h
          exact ⟨f, ts, rfl, hn, hts, hf⟩
      · rintro ⟨_, ts, ⟨rfl⟩, -, hts, hf⟩
        refine ⟨ts, s', hts, ?_⟩
        rw [hf, run_pure_iff]
        exact ⟨rfl, rfl⟩
    · show (if _ then _ >>= _ else _ : Lower KindedTerm).run _ = _ ↔ _
      rw [if_neg hn, run_throw_iff]
      constructor
      · exact False.elim
      · rintro ⟨_, -, ⟨rfl⟩, hn', -⟩
        exact hn hn'

/-- What a derivation says is what the pass does. -/
theorem lower_run_of_lowers (h : Lowers s e t s') : e.lower.run s = (.ok t, s') := by
  induction h with
  | const => rw [lower, run_pure_iff]; exact ⟨rfl, rfl⟩
  | bound hx => exact lower_var_run_iff.2 ⟨_, run_bind_var_iff.2 (.inl ⟨hx, rfl⟩), rfl⟩
  | fresh hx hk =>
    exact lower_var_run_iff.2 ⟨_, run_bind_var_iff.2 (.inr ⟨_, hx, hk, rfl, rfl⟩), rfl⟩
  | not _ ih => exact lower_not_run_iff.2 ⟨_, ih, rfl⟩
  | neg _ ih => exact lower_neg_run_iff.2 ⟨_, ih, rfl⟩
  | compare _ _ hp ihl ihr =>
    rw [lower]
    exact run_expectNums_iff.2 ⟨_, _, _, ihl, ihr, comparisonTerm_ok_iff.2 ⟨_, hp, rfl⟩⟩
  | arith _ _ hp ihl ihr =>
    rw [lower]
    exact run_expectNums_iff.2 ⟨_, _, _, ihl, ihr, arithmeticTerm_ok_iff.2 ⟨_, hp, rfl⟩⟩
  | logic _ _ ihl ihr => exact lower_logic_run_iff.2 ⟨_, _, _, ihl, ihr, rfl⟩
  | bitwise _ _ ihl ihr =>
    rw [lower]
    exact run_expectNums_iff.2
      ⟨⟨_, _⟩, ⟨_, _⟩, _, ihl, ihr, bitsTerm_bitwise_ok_iff.2 ⟨_, _, _, rfl, rfl, rfl⟩⟩
  | shift hop _ _ ihl ihr =>
    rw [lower]
    exact run_expectNums_iff.2
      ⟨⟨_, _⟩, ⟨_, _⟩, _, ihl, ihr, bitsTerm_shift_ok_iff.2 ⟨_, hop, _, _, rfl, rfl, rfl⟩⟩
  | castNone _ ih => rwa [lower_cast_self]
  | castInt he _ ih => exact (lower_cast_run_iff he).2 ⟨_, ih, rfl⟩
  | castDouble he _ ih => exact (lower_cast_run_iff he).2 ⟨_, ih, rfl⟩
  | unary hf _ ih =>
    exact lower_call_run_iff.2 ⟨_, _, hf, rfl,
      lowerAll_cons_run_iff.2 ⟨_, _, _, ih, lowerAll_nil_run_iff.2 ⟨rfl, rfl⟩, rfl⟩, rfl⟩
  | binary hf _ _ ihl ihr =>
    exact lower_call_run_iff.2 ⟨_, _, hf, rfl,
      lowerAll_cons_run_iff.2 ⟨_, _, _, ihl,
        lowerAll_cons_run_iff.2 ⟨_, _, _, ihr, lowerAll_nil_run_iff.2 ⟨rfl, rfl⟩, rfl⟩, rfl⟩, rfl⟩
  | isNaN hf _ ih =>
    exact lower_call_run_iff.2 ⟨_, _, hf, rfl,
      lowerAll_cons_run_iff.2 ⟨_, _, _, ih, lowerAll_nil_run_iff.2 ⟨rfl, rfl⟩, rfl⟩, rfl⟩

/-- What the pass does has a derivation. -/
theorem lowers_of_lower_run (h : e.lower.run s = (.ok t, s')) : Lowers s e t s' := by
  induction e generalizing s t s' with
  | const v =>
    rw [lower, run_pure_iff] at h
    obtain ⟨rfl, rfl⟩ := h
    exact .const
  | var x =>
    obtain ⟨l, hl, rfl⟩ := lower_var_run_iff.1 h
    obtain ⟨hx, rfl⟩ | ⟨k, hx, hk, rfl, rfl⟩ := run_bind_var_iff.1 hl
    · exact .bound hx
    · exact .fresh hx hk
  | not e ih =>
    obtain ⟨b, hb, rfl⟩ := lower_not_run_iff.1 h
    exact .not (ih hb)
  | neg e ih =>
    obtain ⟨n, hn, rfl⟩ := lower_neg_run_iff.1 h
    exact .neg (ih hn)
  | compare op l r ihl ihr =>
    rw [lower] at h
    obtain ⟨lt, rt, s₁, hl, hr, ht⟩ := run_expectNums_iff.1 h
    obtain ⟨p, hp, rfl⟩ := comparisonTerm_ok_iff.1 ht
    exact .compare (ihl hl) (ihr hr) hp
  | arith op l r ihl ihr =>
    rw [lower] at h
    obtain ⟨lt, rt, s₁, hl, hr, ht⟩ := run_expectNums_iff.1 h
    obtain ⟨p, hp, rfl⟩ := arithmeticTerm_ok_iff.1 ht
    exact .arith (ihl hl) (ihr hr) hp
  | connect op l r ihl ihr =>
    cases op with
    | boolean op =>
      obtain ⟨lt, rt, s₁, hl, hr, rfl⟩ := lower_logic_run_iff.1 h
      exact .logic (ihl hl) (ihr hr)
    | iff => exact (run_throw_iff.1 h).elim
    | implies => exact (run_throw_iff.1 h).elim
  | bits op l r ihl ihr =>
    rw [lower] at h
    obtain ⟨lt, rt, s₁, hl, hr, hp⟩ := run_expectNums_iff.1 h
    cases op with
    | bitwise op =>
      obtain ⟨w, l', r', rfl, rfl, rfl⟩ := bitsTerm_bitwise_ok_iff.1 hp
      exact .bitwise (ihl hl) (ihr hr)
    | shift op =>
      obtain ⟨w, hop, l', r', rfl, rfl, rfl⟩ := bitsTerm_shift_ok_iff.1 hp
      exact .shift hop (ihl hl) (ihr hr)
  | cast target e ih =>
    by_cases he : e.ty = target
    · subst he
      unfold lower at h
      rw [if_pos rfl] at h
      exact .castNone (ih h)
    · match target with
      | .bool => exact (lower_cast_run_ne (by simp) he h).elim
      | .num .decimal => exact (lower_cast_run_ne (by simp) he h).elim
      | .num (.machine (.integral w)) =>
        obtain ⟨n, hn, rfl⟩ := (lower_cast_run_iff he).1 h
        exact .castInt he (ih hn)
      | .num (.machine (.real w)) =>
        obtain ⟨n, hn, rfl⟩ := (lower_cast_run_iff he).1 h
        exact .castDouble he (ih hn)
  | call name args ih =>
    obtain ⟨f, ts, hf, hn, hts, ht⟩ := lower_call_run_iff.1 h
    match args, hn with
    | [], hn => cases f <;> cases hn
    | [e], hn =>
      obtain ⟨n, us, s₁, he, hus, rfl⟩ := lowerAll_cons_run_iff.1 hts
      obtain ⟨rfl, rfl⟩ := lowerAll_nil_run_iff.1 hus
      have he := ih e (by simp) he
      cases f with
      | unary f => cases ht; exact .unary hf he
      | binary f => cases hn
      | isNaN => cases ht; exact .isNaN hf he
    | [l, r], hn =>
      obtain ⟨lt, us, s₁, hl, hus, rfl⟩ := lowerAll_cons_run_iff.1 hts
      obtain ⟨rt, us, s₂, hr, hnil, rfl⟩ := lowerAll_cons_run_iff.1 hus
      obtain ⟨rfl, rfl⟩ := lowerAll_nil_run_iff.1 hnil
      cases f with
      | binary f => cases ht; exact .binary hf (ih l (by simp) hl) (ih r (by simp) hr)
      | unary f => cases hn
      | isNaN => cases hn
    | _ :: _ :: _ :: _, hn => cases f <;> cases hn

/-- The pass and the relation agree. -/
theorem lower_run_iff : e.lower.run s = (.ok t, s') ↔ Lowers s e t s' :=
  ⟨lowers_of_lower_run, lower_run_of_lowers⟩

/-- A path condition is the term of a boolean expression. -/
theorem lowerCondition_run_iff {pc : PathCondition} :
    e.lowerCondition.run s = (.ok pc, s') ↔ ∃ b, Lowers s e (ofBool b) s' ∧ ⟨[b]⟩ = pc := by
  rw [lowerCondition, run_expectBool_iff]
  simp only [run_pure_iff, lower_run_iff]
  constructor
  · rintro ⟨b, _, h, rfl, rfl⟩
    exact ⟨b, h, rfl⟩
  · rintro ⟨b, h, rfl⟩
    exact ⟨b, s', h, rfl, rfl⟩

end Expr

end ConstraintSearch

import ConstraintSearch.Proofs.Formula.Operators
import ConstraintSearch.Proofs.Lowering.Agreement
import ConstraintSearch.Proofs.Lowering.Faithful
import ConstraintSearch.Proofs.Term.Evaluation

/-!
# Lowering preserves meaning

Source expressions and engine terms have evaluators of their own. On the faithful fragment they
agree: `Lowers.sameOutcome` says that the expression and its term give the same value, or
both divide by zero, whenever the valuation and the assignment give the variables and their
literals the same values.

The proof is one induction on the derivation of the term. What the two evaluators make of one
node is compared first, on given operands: a source operator casts its operands to the type at
which they meet, and an engine operator has them converted to the kind at which they are
unified, which is the same unless two integers are mixed.
-/

namespace ConstraintSearch

/-- The outcomes of an expression and of a term are the same: a value, or a division by
zero. -/
inductive SameOutcome {k : Kind} : Except EvaluationError Value → Except TermError k.Carrier → Prop
  | value (v : k.Carrier) : SameOutcome (.ok (.ofScalar ⟨k, v⟩)) (.ok v)
  | divisionByZero : SameOutcome (.error .divisionByZero) (.error .divisionByZero)

namespace SameOutcome

variable {k v : Kind} {x : Except EvaluationError Value} {y : Except TermError k.Carrier}

/-- Steps that agree on every value agree after evaluations that agree. -/
theorem bind (h : SameOutcome x y) {f : Value → Except EvaluationError Value}
    {g : k.Carrier → Except TermError v.Carrier}
    (hfg : ∀ a, SameOutcome (f (.ofScalar ⟨k, a⟩)) (g a)) : SameOutcome (x >>= f) (y >>= g) := by
  cases h with
  | value a => exact hfg a
  | divisionByZero => exact .divisionByZero

/-- A result that does not exist where the divisor is zero. -/
theorem elim (o : Option k.Carrier) :
    SameOutcome (o.elim (.error .divisionByZero) fun z ↦ .ok (.ofScalar ⟨k, z⟩))
      (o.elim (.error .divisionByZero) .ok) := by
  cases o with
  | none => exact .divisionByZero
  | some z => exact .value z

end SameOutcome

/-! ### Nodes -/

section

variable {ν : Valuation} {σ : Assignment} {e l r : Expr} {n lt rt : NumTerm} {p : TermPair}

theorem sameOutcome_const {v : Value} (h : v.ty ≠ .decimal) :
    SameOutcome (.ok v) ((Lower.constant v).term.evaluate σ) := by
  match v with
  | ⟨.bool, b⟩ => exact .value (k := .bool) b
  | ⟨.num (.machine k), x⟩ => exact .value (k := .num k) x
  | ⟨.num .decimal, _⟩ => exact absurd rfl h

theorem sameOutcome_var {s : LoweringState} {x : Variable} {l : Literal} (h : Agrees ν σ s x)
    (hl : s.literal? x = some l) :
    SameOutcome ((Expr.var x).evaluate ν) (l.toTerm.term.evaluate σ) := by
  obtain ⟨b, hx, -, hb⟩ := h.exists_carrier hl
  rw [Expr.evaluate, hx, Literal.toTerm, Term.evaluate, hb]
  exact .value b

theorem sameOutcome_neg
    (he : SameOutcome (k := .num n.kind) (e.evaluate ν) (n.term.evaluate σ)) :
    SameOutcome ((Expr.neg e).evaluate ν)
      ((Term.arith .mul n.term (.const (n.kind.ofInt (-1)))).evaluate σ) := by
  rw [Expr.evaluate, Term.evaluate_arith]
  refine he.bind fun x ↦ ?_
  rw [Term.evaluate]
  show SameOutcome _ ((n.kind.arithmetic? .mul x (n.kind.ofInt (-1))).elim _ _)
  rw [NumKind.mul_neg_one]
  exact .value (k := .num n.kind) _

theorem sameOutcome_compare {op : Comparison} (hp : lt.Unified rt p)
    (hm : lt.kind.MeetAt rt.kind p.kind)
    (hl : SameOutcome (k := .num lt.kind) (l.evaluate ν) (lt.term.evaluate σ))
    (hr : SameOutcome (k := .num rt.kind) (r.evaluate ν) (rt.term.evaluate σ)) :
    SameOutcome ((Expr.compare op l r).evaluate ν) ((p.compare op).evaluate σ) := by
  rw [Expr.evaluate, TermPair.compare, Term.evaluate, hp.left.evaluate, hp.right.evaluate]
  simp only [bind_map_left]
  refine hl.bind fun x ↦ hr.bind fun y ↦ ?_
  rw [Value.compare_ofScalar hm]
  exact .value (k := .bool) _

theorem sameOutcome_arith {op : ArithmeticOp} (hp : lt.Unified rt p)
    (hm : lt.kind.MeetAt rt.kind p.kind)
    (hl : SameOutcome (k := .num lt.kind) (l.evaluate ν) (lt.term.evaluate σ))
    (hr : SameOutcome (k := .num rt.kind) (r.evaluate ν) (rt.term.evaluate σ)) :
    SameOutcome ((Expr.arith op l r).evaluate ν) ((p.arith op).term.evaluate σ) := by
  rw [Expr.evaluate, TermPair.arith, Term.evaluate_arith, hp.left.evaluate, hp.right.evaluate]
  simp only [bind_map_left]
  refine hl.bind fun x ↦ hr.bind fun y ↦ ?_
  rw [Value.arithmetic_ofScalar hm]
  exact .elim _

theorem sameOutcome_bitwise {w : Width} {op : BooleanOp} {lt rt : Term (.num (.integral w))}
    (hl : SameOutcome (l.evaluate ν) (lt.evaluate σ))
    (hr : SameOutcome (r.evaluate ν) (rt.evaluate σ)) :
    SameOutcome ((Expr.bits (.bitwise op) l r).evaluate ν)
      ((Term.bitwise op lt rt).evaluate σ) := by
  rw [Expr.evaluate, Term.evaluate]
  refine hl.bind fun x ↦ hr.bind fun y ↦ ?_
  rw [Value.bits, Value.bitwise_ofScalar (NumKind.meetAt_self _), Word.wrap_toInt, Word.wrap_toInt]
  exact .value (k := .num (.integral w)) _

/-- A shift, of which the source cuts the distance to 32 bits before it is masked. -/
theorem sameOutcome_shift {w : Width} {op : ShiftOp} {h : op.ExistsAt w}
    {lt rt : Term (.num (.integral w))} (hl : SameOutcome (l.evaluate ν) (lt.evaluate σ))
    (hr : SameOutcome (r.evaluate ν) (rt.evaluate σ)) :
    SameOutcome ((Expr.bits (.shift op) l r).evaluate ν)
      ((Term.shift op h lt rt).evaluate σ) := by
  rw [Expr.evaluate, Term.evaluate]
  refine hl.bind fun x ↦ hr.bind fun y ↦ ?_
  rw [← Word.places_wrap]
  exact .value (k := .num (.integral w)) _

/-- A cast to the type of the operand's kind. -/
theorem sameOutcome_cast_self {k : Kind} {t : Term k}
    (he : SameOutcome (e.evaluate ν) (t.evaluate σ)) :
    SameOutcome ((Expr.cast (Ty.ofKind k) e).evaluate ν) (t.evaluate σ) := by
  rw [Expr.evaluate, ← bind_pure (t.evaluate σ)]
  refine he.bind fun x ↦ ?_
  rw [Value.cast_ofScalar_self ⟨k, x⟩]
  exact .value x

/-- A cast that converts. -/
theorem sameOutcome_cast {u : NumKind} {t : Term (.num u)} (hu : u ≠ .float)
    (ht : n.ConvertsTo u t)
    (he : SameOutcome (k := .num n.kind) (e.evaluate ν) (n.term.evaluate σ)) :
    SameOutcome ((Expr.cast (.num (.machine u)) e).evaluate ν) (t.evaluate σ) := by
  rw [Expr.evaluate, ht.evaluate, map_eq_pure_bind]
  refine he.bind fun x ↦ ?_
  rw [Value.expectCast_ofScalar hu]
  exact .value (k := .num u) _

theorem sameOutcome_unary {name : String} {f : UnaryFunction}
    (hf : Builtin.ofName? name = some (.unary f))
    (he : SameOutcome (k := .num n.kind) (e.evaluate ν) (n.term.evaluate σ)) :
    SameOutcome ((Expr.call name [e]).evaluate ν)
      ((Term.apply f n.intoDouble).evaluate σ) := by
  rw [Expr.evaluate_call_one, Term.evaluate, n.convertsTo_intoDouble.evaluate, bind_map_left]
  refine he.bind fun x ↦ ?_
  rw [Value.callValue_unary hf]
  exact .value (k := .double) _

theorem sameOutcome_binary {name : String} {f : BinaryFunction}
    (hf : Builtin.ofName? name = some (.binary f))
    (hl : SameOutcome (k := .num lt.kind) (l.evaluate ν) (lt.term.evaluate σ))
    (hr : SameOutcome (k := .num rt.kind) (r.evaluate ν) (rt.term.evaluate σ)) :
    SameOutcome ((Expr.call name [l, r]).evaluate ν)
      ((Term.apply₂ f lt.intoDouble rt.intoDouble).evaluate σ) := by
  rw [Expr.evaluate_call_two, Term.evaluate, lt.convertsTo_intoDouble.evaluate,
    rt.convertsTo_intoDouble.evaluate]
  simp only [bind_map_left]
  refine hl.bind fun x ↦ hr.bind fun y ↦ ?_
  rw [Value.callValue_binary hf]
  exact .value (k := .double) _

/-- The test for a NaN, which the engine makes by comparing a number with itself. -/
theorem sameOutcome_isNaN {name : String} (hf : Builtin.ofName? name = some .isNaN)
    (he : SameOutcome (k := .num n.kind) (e.evaluate ν) (n.term.evaluate σ)) :
    SameOutcome ((Expr.call name [e]).evaluate ν)
      ((Term.compare .ne n.intoDouble n.intoDouble).evaluate σ) := by
  rw [Expr.evaluate_call_one, Term.evaluate, n.convertsTo_intoDouble.evaluate]
  simp only [bind_map_left]
  rw [Term.bind_twice]
  refine he.bind fun x ↦ ?_
  rw [Value.callValue_isNaN hf, ← BinaryFloat.ne_self]
  exact .value (k := .bool) _

end

/-! ### Lowering -/

namespace Expr

/-- Operands that do not mix integers meet at the kind at which they are unified. -/
theorem meetAt_of_not_mixes {l r : Expr} {lt rt : NumTerm} {p : TermPair}
    (h : ¬ MixesIntegers l r) (hl : l.kind? = some lt.toKinded.kind)
    (hr : r.kind? = some rt.toKinded.kind) (hp : lt.Unified rt p) :
    lt.kind.MeetAt rt.kind p.kind := by
  refine NumKind.meetAt_of_unified? hp.kind ?_
  simpa [MixesIntegers, hl, hr, NumTerm.toKinded] using h

/-- A faithful cast that converts leads to a kind to which there are conversions. -/
theorem Faithful.cast_not_preserved {target : Ty} {e : Expr} {k : Kind}
    (h : (Expr.cast target e).Faithful) (he : e.ty ≠ target) (hk : target.kind? = some k) :
    ¬ k.Preserved := by
  intro hpres
  obtain ⟨k', ht, hk'⟩ | ⟨rfl | rfl, -⟩ := h.self
  · obtain rfl : k' = k := Option.some.inj (ht.symm.trans hk)
    exact he ((ty_eq_of_kind? hk' hpres).trans (Ty.ofKind_of_kind? hk))
  · cases hk
    simp [Kind.Preserved] at hpres
  · cases hk
    simp [Kind.Preserved] at hpres

/-- A faithful cast to the declared type of its operand is one to the type of its kind. -/
theorem Faithful.ty_of_cast_self {e : Expr} {k : Kind} (h : (Expr.cast e.ty e).Faithful)
    (hk : e.kind? = some k) : e.ty = Ty.ofKind k := by
  obtain ⟨k', ht, hk'⟩ | ⟨-, hne⟩ := h.self
  · obtain rfl : k' = k := Option.some.inj (hk'.symm.trans hk)
    exact (Ty.ofKind_of_kind? ht).symm
  · exact absurd rfl hne

end Expr

/-- No operand stays alone where no constant zero is added or subtracted. -/
theorem Lower.soleOperand?_eq_none {op : ArithmeticOp} {l r : Expr} {p : TermPair}
    (h : op = .add ∨ op = .sub → l.isMachineZero = false ∧ r.isMachineZero = false) :
    soleOperand? op l r p = none := by
  unfold soleOperand?
  split
  · next hop => simp [h hop]
  · rfl

/-- On the faithful fragment an expression and its term have the same outcome. -/
theorem Lowers.sameOutcome {ν : Valuation} {σ : Assignment} {s s' : LoweringState} {e : Expr}
    {t : KindedTerm} (h : Lowers s e t s') (hf : e.Faithful)
    (ha : ∀ x ∈ e.vars, Agrees ν σ s' x) :
    SameOutcome (e.evaluate ν) (t.term.evaluate σ) := by
  -- In the state after both operands, the literals of the left one are still the same, so that
  -- agreement there is agreement in the state after the left operand alone.
  induction h with
  | const => exact sameOutcome_const hf.self
  | bound hx => exact sameOutcome_var (ha _ (by simp [Expr.vars])) hx
  | @fresh s x k hx hk =>
    exact sameOutcome_var (l := ⟨s.next, k⟩) (ha x (by simp [Expr.vars]))
      (LoweringState.literal?_extend_self hx)
  | not _ ih =>
    rw [Expr.evaluate]
    exact (ih hf.of_not ha).bind fun b ↦ .value (k := .bool) !b
  | neg _ ih => exact sameOutcome_neg (ih hf.of_neg ha)
  | compare hl hr hp ihl ihr =>
    obtain ⟨hlf, hrf⟩ := hf.of_pair rfl
    obtain ⟨hla, hra⟩ := Agrees.operands ha hr
    have hp := NumTerm.unified_of_unify hp
    have hm := Expr.meetAt_of_not_mixes hf.self (hl.kind?_eq (respects_of_agrees hla))
      (hr.kind?_eq (respects_of_agrees hra)) hp
    exact sameOutcome_compare hp hm (ihl hlf hla) (ihr hrf hra)
  | arith hl hr hp ihl ihr =>
    obtain ⟨hlf, hrf⟩ := hf.of_pair rfl
    obtain ⟨hla, hra⟩ := Agrees.operands ha hr
    have hp := NumTerm.unified_of_unify hp
    have hm := Expr.meetAt_of_not_mixes hf.self.1 (hl.kind?_eq (respects_of_agrees hla))
      (hr.kind?_eq (respects_of_agrees hra)) hp
    rw [Lower.soleOperand?_eq_none hf.self.2]
    exact sameOutcome_arith hp hm (ihl hlf hla) (ihr hrf hra)
  | @logic _ _ _ _ _ op _ _ hl hr ihl ihr =>
    obtain ⟨hlf, hrf⟩ := hf.of_pair rfl
    obtain ⟨hla, hra⟩ := Agrees.operands ha hr
    rw [Expr.evaluate]
    exact (ihl hlf hla).bind fun a ↦ (ihr hrf hra).bind fun b ↦ .value (k := .bool) (op.onBool a b)
  | bitwise hl hr ihl ihr =>
    obtain ⟨hlf, hrf⟩ := hf.of_pair rfl
    obtain ⟨hla, hra⟩ := Agrees.operands ha hr
    exact sameOutcome_bitwise (ihl hlf hla) (ihr hrf hra)
  | shift _ hl hr ihl ihr =>
    obtain ⟨hlf, hrf⟩ := hf.of_pair rfl
    obtain ⟨hla, hra⟩ := Agrees.operands ha hr
    exact sameOutcome_shift (ihl hlf hla) (ihr hrf hra)
  | castNone he ih =>
    rw [hf.ty_of_cast_self (he.kind?_eq (respects_of_agrees ha))]
    exact sameOutcome_cast_self (ih hf.of_cast ha)
  | @castInt _ _ _ w n hne _ ih =>
    -- Wide integers are not reached by a conversion, so the target is the narrow one.
    have hw := hf.cast_not_preserved hne rfl
    obtain rfl : w = .w32 := by cases w <;> simp [Kind.Preserved] at hw ⊢
    exact sameOutcome_cast (by simp) n.convertsTo_intoInt (ih hf.of_cast ha)
  | @castDouble _ _ _ w n hne _ ih =>
    have hw := hf.cast_not_preserved hne rfl
    obtain rfl : w = .w64 := by cases w <;> simp [Kind.Preserved] at hw ⊢
    exact sameOutcome_cast (by simp) n.convertsTo_intoDouble (ih hf.of_cast ha)
  | unary hname _ ih =>
    exact sameOutcome_unary hname
      (ih (hf.of_call (by simp)) fun x hx ↦ ha x (List.mem_append_left _ hx))
  | binary hname hl hr ihl ihr =>
    obtain ⟨hla, hra⟩ := Agrees.operands ha hr
    exact sameOutcome_binary hname (ihl (hf.of_call (by simp)) hla)
      (ihr (hf.of_call (by simp)) fun x hx ↦ hra x (List.mem_append_left _ hx))
  | isNaN hname _ ih =>
    exact sameOutcome_isNaN hname
      (ih (hf.of_call (by simp)) fun x hx ↦ ha x (List.mem_append_left _ hx))

/-- Lowering keeps the meaning of faithful expressions. From whatever state such an expression is
lowered, it gives the same value as its term, or both divide by zero, if the valuation gives its
variables values of their types and the assignment gives their literals the same values. -/
theorem Expr.lower_sameOutcome {ν : Valuation} {σ : Assignment} {s s' : LoweringState} {e : Expr}
    {t : KindedTerm} (h : e.lower.run s = (.ok t, s')) (hf : e.Faithful)
    (ha : ∀ x ∈ e.vars, Agrees ν σ s' x) :
    SameOutcome (e.evaluate ν) (t.term.evaluate σ) :=
  (lowers_of_lower_run h).sameOutcome hf ha

namespace Remainder

/-! The comparison `7 % x < d` of a narrow integer with a float. -/

def x : Variable := ⟨"x", .int⟩

def d : Variable := ⟨"d", .double⟩

def comparison : Expr :=
  .compare .lt (.arith .rem (.const (.ofScalar ⟨.int, 7#32⟩)) (.var x)) (.var d)

def term : Term .bool :=
  .compare .lt (.toDouble (n := .int) (.arith .rem (.const 7#32) (.lit 0))) (.lit 1)

def valuation (a : Word .w32) (b : BinaryFloat .w64) : Valuation :=
  ⟨[(x, .ofScalar ⟨.int, a⟩), (d, .ofScalar ⟨.double, b⟩)]⟩

def assignment (a : Word .w32) (b : BinaryFloat .w64) : Assignment :=
  ⟨[(0, ⟨.int, a⟩), (1, ⟨.double, b⟩)]⟩

theorem faithful_comparison : comparison.Faithful := by
  intro n hn
  simp only [comparison, Expr.nodes, List.cons_append, List.nil_append, List.mem_cons,
    List.not_mem_nil, or_false] at hn
  rcases hn with rfl | rfl | rfl | rfl | rfl
  · show ¬ Expr.MixesIntegers _ _
    simp [Expr.MixesIntegers, Expr.kind?, Ty.kind?, d]
  · refine ⟨?_, by simp⟩
    simp [Expr.MixesIntegers, Expr.kind?, Ty.kind?, Ty.constantKind, Ty.ofKind, x]
  · show Value.ty _ ≠ _
    simp [Ty.ofKind]
  · trivial
  · trivial

/-- The bindings that are made for the comparison. -/
def pass : LoweringState :=
  ⟨[⟨x, ⟨0, .int⟩⟩, ⟨d, ⟨1, .double⟩⟩], 2⟩

/-- Where `x` is zero, the comparison and its term divide by zero. -/
theorem lower_sameOutcome_comparison :
    SameOutcome (comparison.evaluate (valuation 0#32 .nan))
      (term.evaluate (assignment 0#32 .nan)) := by
  have hrun : comparison.lower.run ⟨[], 0⟩ = (.ok ⟨.bool, term⟩, pass) := rfl
  refine Expr.lower_sameOutcome hrun faithful_comparison fun z hz ↦ ?_
  simp only [comparison, Expr.vars, List.nil_append, List.cons_append, List.mem_cons,
    List.not_mem_nil, or_false] at hz
  rcases hz with rfl | rfl
  · exact agrees_of_literal? (a := ⟨.int, 0#32⟩) rfl rfl rfl rfl
  · exact agrees_of_literal? (a := ⟨.double, .nan⟩) rfl rfl rfl rfl

end Remainder

end ConstraintSearch

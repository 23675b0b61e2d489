import ConstraintSearch.Proofs.Lowering.Bindings
import ConstraintSearch.Proofs.Term.Evaluation

/-!
# Zeros that are left out

A constant zero that is added or subtracted is left out, and only the other operand stays, as it is
after unification. That changes no value but one: negative zero to which positive zero is added
becomes positive zero, and the operand that stays alone is still negative zero. Added, positive zero
is any zero but the negative one of floats, and subtracted it is that one.
-/

namespace ConstraintSearch

open Lower

/-! ### Zeros of a kind -/

namespace NumKind

/-- The zeros of a kind. Integers have one only. -/
def signedZero : (k : NumKind) → Bool → k.Carrier
  | .integral _, _ => 0
  | .real w, s => BinaryFloat.signedZero w s

/-- What a number becomes when a zero is added to it. -/
def plusZero (k : NumKind) (negative : Bool) (x : k.Carrier) : k.Carrier :=
  if negative = false ∧ x = k.signedZero true then k.signedZero false else x

/-- Only negative zero does not stay what it is, when the other zero is added. -/
theorem plusZero_eq_self_iff {k : NumKind} {s : Bool} {x : k.Carrier} :
    k.plusZero s x = x ↔ ¬ (s = false ∧ k.isIntegral = false ∧ x = k.signedZero true) := by
  unfold plusZero
  split
  · next h =>
    obtain ⟨rfl, rfl⟩ := h
    cases k <;> simp [signedZero, BinaryFloat.signedZero, isIntegral]
  · next h => exact iff_of_true rfl fun h' ↦ h ⟨h'.1, h'.2.2⟩

theorem plusZero_integral (w : Width) (s : Bool) (x : Word w) :
    plusZero (.integral w) s x = x :=
  plusZero_eq_self_iff.2 fun h ↦ nomatch h.2.1

theorem arithmetic?_add_signedZero (k : NumKind) (x : k.Carrier) (s : Bool) :
    k.arithmetic? .add x (k.signedZero s) = some (k.plusZero s x) := by
  cases k with
  | integral w =>
    rw [plusZero_integral]
    exact congrArg some (BitVec.add_zero x)
  | real w => exact congrArg some (BinaryFloat.add_signedZero x s)

theorem arithmetic?_signedZero_add (k : NumKind) (x : k.Carrier) (s : Bool) :
    k.arithmetic? .add (k.signedZero s) x = some (k.plusZero s x) := by
  rw [← arithmetic?_add_signedZero]
  cases k with
  | integral w => exact congrArg some (BitVec.add_comm _ _)
  | real w => exact congrArg some (BinaryFloat.add_comm _ _)

theorem arithmetic?_sub_signedZero (k : NumKind) (x : k.Carrier) (s : Bool) :
    k.arithmetic? .sub x (k.signedZero s) = some (k.plusZero (!s) x) := by
  rw [← arithmetic?_add_signedZero]
  cases k with
  | integral w => simp [arithmetic?, Word.arithmetic?, signedZero]
  | real w => exact congrArg some (BinaryFloat.sub_signedZero x s)

/-- A zero is converted to a zero, which is negative only for negative floats. -/
theorem convert_signedZero (k v : NumKind) (s : Bool) :
    k.convert v (k.signedZero s) = v.signedZero (s && !k.isIntegral) := by
  rcases k with w | w <;> rcases v with u | u
  · show Word.wrap u (0 : Word w).toInt = 0
    simp [Word.wrap]
  · show BinaryFloat.ofInt u (0 : Word w).toInt = _
    simp [BinaryFloat.ofInt, BinaryFloat.ofScaledInt, signedZero, BinaryFloat.signedZero,
      isIntegral]
  -- A float becomes an integer by rounding toward zero, and either zero has the floor zero.
  · have hfloor : (Magnitude.zero w).floor = 0 := by cases w <;> rfl
    show Word.saturate u (if s then -((Magnitude.zero w).floor : Int) else _) = 0
    rw [hfloor]
    cases s <;> cases u <;> rfl
  · show BinaryFloat.toWidth u (BinaryFloat.signedZero w s) = BinaryFloat.signedZero u (s && true)
    rw [Bool.and_true]
    unfold BinaryFloat.toWidth
    split
    · next h =>
      subst h
      rfl
    · rfl

end NumKind

/-! ### Zeros that are dropped -/

namespace Expr

/-- Whether the expression is a constant float that is negative zero. -/
def isNegativeZero : Expr → Bool
  | .const ⟨.num (.machine (.real w)), x⟩ => x = BinaryFloat.signedZero w true
  | _ => false

theorem exists_of_isMachineZero {e : Expr} (h : e.isMachineZero = true) :
    ∃ (k : NumKind) (s : Bool), e = .const ⟨.num (.machine k), k.signedZero s⟩ ∧
      e.isNegativeZero = (s && !k.isIntegral) := by
  match e, h with
  | .const ⟨.num (.machine (.integral w)), x⟩, h =>
    obtain rfl : x = 0 := beq_iff_eq.1 h
    exact ⟨.integral w, false, rfl, rfl⟩
  | .const ⟨.num (.machine (.real w)), .finite s m⟩, h =>
    obtain rfl := Magnitude.eq_zero_of_significand (beq_iff_eq.1 h)
    refine ⟨.real w, s, rfl, ?_⟩
    cases s <;> simp [isNegativeZero, BinaryFloat.signedZero, NumKind.isIntegral]

end Expr

/-- A constant zero evaluates to zero, whatever it is converted to. -/
theorem Lowers.evaluate_zero {s s' : LoweringState} {e : Expr} {t : NumTerm} {k : NumKind}
    {u : Term (.num k)} (h : Lowers s e t.toKinded s') (hz : e.isMachineZero = true)
    (hu : t.ConvertsTo k u) (σ : Assignment) :
    u.evaluate σ = .ok (k.signedZero e.isNegativeZero) := by
  obtain ⟨v, b, rfl, hsign⟩ := Expr.exists_of_isMachineZero hz
  obtain ⟨c, t⟩ := t
  have hrun := Expr.lower_run_of_lowers h
  rw [Expr.lower, Lower.run_pure_iff] at hrun
  have ht : (⟨.num v, .const (v.signedZero b)⟩ : KindedTerm) = ⟨.num c, t⟩ := hrun.1
  cases ht
  rw [hu.evaluate, hsign, ← NumKind.convert_signedZero]
  rfl

namespace Term

variable {σ : Assignment} {k : NumKind} {l r : Term (.num k)} {s : Bool}

/-- A sum with a zero at the left. -/
theorem evaluate_zero_add (h : l.evaluate σ = .ok (k.signedZero s)) :
    (arith .add l r).evaluate σ = k.plusZero s <$> r.evaluate σ := by
  rw [evaluate_arith, h]
  rcases r.evaluate σ with e | y
  · rfl
  · show (k.arithmetic? .add (k.signedZero s) y).elim _ Except.ok = Except.ok (k.plusZero s y)
    rw [NumKind.arithmetic?_signedZero_add]
    rfl

/-- A sum or difference with a zero at the right. -/
theorem evaluate_arith_zero {op : ArithmeticOp} (hop : op = .add ∨ op = .sub)
    (h : r.evaluate σ = .ok (k.signedZero s)) :
    (arith op l r).evaluate σ = k.plusZero (if op = .sub then !s else s) <$> l.evaluate σ := by
  rw [evaluate_arith, h]
  rcases l.evaluate σ with e | x
  · rfl
  · show (k.arithmetic? op x (k.signedZero s)).elim _ Except.ok = Except.ok _
    rcases hop with rfl | rfl
    · rw [NumKind.arithmetic?_add_signedZero]
      rfl
    · rw [NumKind.arithmetic?_sub_signedZero]
      rfl

end Term

/-! ### Zeros that are left out -/

namespace Lower

/-- A zero is left out: any that is added, and one that is subtracted from what is no zero. -/
def LeavesOutZero : ArithmeticOp → Expr → Expr → Prop
  | .add, l, r => l.isMachineZero ∨ r.isMachineZero
  | .sub, l, r => ¬ l.isMachineZero ∧ r.isMachineZero
  | _, _, _ => False

/-- Whether the zero that is left out, when it is added, is negative zero. Of two zeros the left one
is left out, and a zero is subtracted by adding it with its sign changed. -/
def addsNegativeZero (op : ArithmeticOp) (l r : Expr) : Bool :=
  if l.isMachineZero then l.isNegativeZero
  else if op = .sub then !r.isNegativeZero
  else r.isNegativeZero

/-- The operand that stays alone is negative zero, and the zero that is left out is positive zero
when it is added. -/
def TurnsPositive (op : ArithmeticOp) (l r : Expr) (k : NumKind)
    (value : Except TermError k.Carrier) : Prop :=
  addsNegativeZero op l r = false ∧ k.isIntegral = false ∧ value = .ok (k.signedZero true)

theorem plusZero_map_eq_iff {op : ArithmeticOp} {l r : Expr} {k : NumKind}
    {value : Except TermError k.Carrier} :
    value = k.plusZero (addsNegativeZero op l r) <$> value ↔ ¬ TurnsPositive op l r k value := by
  rcases value with e | x
  · exact iff_of_true rfl fun h ↦ nomatch h.2.2
  · show Except.ok x = Except.ok (k.plusZero _ x) ↔ _
    rw [Except.ok.injEq, eq_comm, NumKind.plusZero_eq_self_iff, TurnsPositive, Except.ok.injEq]

theorem TurnsPositive.plusZero_map {op : ArithmeticOp} {l r : Expr} {k : NumKind}
    {value : Except TermError k.Carrier} (h : TurnsPositive op l r k value) :
    k.plusZero (addsNegativeZero op l r) <$> value = .ok (k.signedZero false) := by
  obtain ⟨hsign, -, rfl⟩ := h
  rw [hsign]
  exact congrArg Except.ok (if_pos ⟨rfl, rfl⟩)

/-- Where a zero is left out, the operand that stays alone has the value of the sum or difference,
but for the zero that is left out. -/
theorem exists_soleOperand {op : ArithmeticOp} {l r : Expr} {lt rt : NumTerm} {p : TermPair}
    {s s₁ s₂ : LoweringState} (hzero : LeavesOutZero op l r) (hl : Lowers s l lt.toKinded s₁)
    (hr : Lowers s₁ r rt.toKinded s₂) (hp : lt.Unified rt p) :
    ∃ t : Term (.num p.kind), soleOperand? op l r p = some ⟨p.kind, t⟩ ∧ ∀ σ,
      (p.arith op).term.evaluate σ =
        p.kind.plusZero (addsNegativeZero op l r) <$> t.evaluate σ := by
  have hop : op = .add ∨ op = .sub := by
    cases op <;> simp [LeavesOutZero] at hzero ⊢
  -- Of two zeros the left one is left out, so the left operand comes first.
  by_cases hlz : l.isMachineZero = true
  · obtain rfl : op = .add := hop.resolve_right fun hs ↦ by
      subst hs
      exact hzero.1 hlz
    refine ⟨p.right, by simp [soleOperand?, hlz, TermPair.rightTerm], fun σ ↦ ?_⟩
    rw [addsNegativeZero, if_pos hlz]
    exact Term.evaluate_zero_add (hl.evaluate_zero hlz hp.left σ)
  · have hrz : r.isMachineZero = true := by
      rcases hop with rfl | rfl
      · exact hzero.resolve_left hlz
      · exact hzero.2
    refine ⟨p.left, by simp [soleOperand?, hop, hlz, hrz, TermPair.leftTerm], fun σ ↦ ?_⟩
    rw [addsNegativeZero, if_neg hlz]
    exact Term.evaluate_arith_zero hop (hr.evaluate_zero hrz hp.right σ)

end Lower

/-- A zero that is added or subtracted may be left out. The sum or difference is then lowered to
the operand that stays alone, as it is after unification, and that has the same outcome under every
assignment as the operator would have on both operands, but for one case: where it is negative zero
and the other operand is positive zero when it is added, the operator would give positive zero. -/
theorem Expr.lower_arith_leavesOutZero {op : ArithmeticOp} {l r : Expr} {lt rt : NumTerm}
    {p : TermPair} {s s₁ s₂ : LoweringState} (hzero : LeavesOutZero op l r)
    (hl : l.lower.run s = (.ok lt.toKinded, s₁)) (hr : r.lower.run s₁ = (.ok rt.toKinded, s₂))
    (hp : lt.unify rt = .ok p) :
    ∃ t : Term (.num p.kind), (Expr.arith op l r).lower.run s = (.ok ⟨.num p.kind, t⟩, s₂) ∧
      ∀ σ, (t.evaluate σ = (p.arith op).term.evaluate σ ↔
          ¬ TurnsPositive op l r p.kind (t.evaluate σ)) ∧
        (TurnsPositive op l r p.kind (t.evaluate σ) →
          (p.arith op).term.evaluate σ = .ok (p.kind.signedZero false)) := by
  have hl := lowers_of_lower_run hl
  have hr := lowers_of_lower_run hr
  obtain ⟨t, hsole, hplain⟩ := exists_soleOperand hzero hl hr (NumTerm.unified_of_unify hp)
  refine ⟨t, ?_, fun σ ↦ ?_⟩
  · have hnode : Lowers s (.arith op l r) _ s₂ := .arith hl hr hp
    rw [hsole] at hnode
    exact lower_run_of_lowers hnode
  · rw [hplain]
    exact ⟨plusZero_map_eq_iff, TurnsPositive.plusZero_map⟩

namespace SignedZeros

/-! A narrow float from which negative zero is subtracted, and a wide one to which positive zero is
added. -/

def f : Variable := ⟨"f", .float⟩

def x : Variable := ⟨"x", .double⟩

/-- The constant zero of a sign. -/
def zero (negative : Bool) : Expr :=
  .const (.ofScalar ⟨.double, NumKind.double.signedZero negative⟩)

/-- The operands of `f - (-0.0)` after unification. -/
def difference : TermPair :=
  ⟨.double, .toDouble (n := .float) (.lit 0), .const (NumKind.double.signedZero true)⟩

theorem lower_arith_leavesOutZero_difference :
    ∃ t : Term .double,
      (Expr.arith .sub (.var f) (zero true)).lower.run ⟨[], 0⟩ =
        (.ok ⟨.double, t⟩, ⟨[⟨f, ⟨0, .float⟩⟩], 1⟩) ∧
      ∀ σ, (t.evaluate σ = (difference.arith .sub).term.evaluate σ ↔
          ¬ TurnsPositive .sub (.var f) (zero true) .double (t.evaluate σ)) ∧
        (TurnsPositive .sub (.var f) (zero true) .double (t.evaluate σ) →
          (difference.arith .sub).term.evaluate σ = .ok (NumKind.double.signedZero false)) := by
  have hp : NumTerm.unify ⟨.float, .lit 0⟩ ⟨.double, .const (NumKind.double.signedZero true)⟩ =
      .ok difference := rfl
  have hzero : LeavesOutZero .sub (.var f) (zero true) := ⟨by decide, by decide⟩
  exact Expr.lower_arith_leavesOutZero hzero rfl rfl hp

/-- The operands of `x + 0.0`. -/
def sum : TermPair :=
  ⟨.double, .lit 0, .const (NumKind.double.signedZero false)⟩

/-- Negative zero for `x`. -/
def negative : Assignment :=
  ⟨[(0, ⟨.double, NumKind.double.signedZero true⟩)]⟩

/-- Of `x + 0.0` only `x` is left, which stays negative zero, while the sum is positive zero. -/
theorem sum_changes_sign :
    (Expr.arith .add (.var x) (zero false)).lower.run ⟨[], 0⟩ =
        (.ok ⟨.double, .lit 0⟩, ⟨[⟨x, ⟨0, .double⟩⟩], 1⟩) ∧
      (Expr.var x).lower.run ⟨[], 0⟩ = (.ok sum.leftTerm.toKinded, ⟨[⟨x, ⟨0, .double⟩⟩], 1⟩) ∧
      (zero false).lower.run ⟨[⟨x, ⟨0, .double⟩⟩], 1⟩ =
        (.ok sum.rightTerm.toKinded, ⟨[⟨x, ⟨0, .double⟩⟩], 1⟩) ∧
      sum.leftTerm.unify sum.rightTerm = .ok sum ∧
      (Term.lit (k := .double) 0).evaluate negative = .ok (NumKind.double.signedZero true) ∧
      (sum.arith .add).term.evaluate negative = .ok (NumKind.double.signedZero false) ∧
      NumKind.double.signedZero true ≠ NumKind.double.signedZero false :=
  ⟨rfl, rfl, rfl, rfl, rfl, rfl, by decide⟩

end SignedZeros

end ConstraintSearch

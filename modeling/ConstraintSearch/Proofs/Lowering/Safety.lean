import ConstraintSearch.Proofs.Formula.Safety

/-!
# What can be lowered is well typed

Nothing forces a source expression to be well typed, but those that can be lowered are: under a
valuation that gives every variable a value of its type, their evaluation meets no operand of a
wrong type, no unknown function and no wrong number of arguments. It can divide by zero, and if a
decimal constant occurs it can fail to cast.

Three notions of type are at play, and they are different ones: the kind of the term, the declared
type, and the type of the value. What they have in common is `Ty.Fits`. The declared type fits the
kind, by induction on the expression, and so does the type of the value, by another induction that
needs the first one where a cast is left out. In both the kind of a node is what carries the
argument: a node with an integer term has operands with integer terms.
-/

namespace ConstraintSearch

variable {dec : Prop}

/-! ### The declared type -/

namespace Ty

theorem fits_constantKind {t : Ty} (h : t = .decimal → dec) : t.Fits dec t.constantKind := by
  match t with
  | .bool => exact .ofBool
  | .num (.machine k) => exact .ofNum id (by simp)
  | .num .decimal => exact .ofNum (fun _ ↦ rfl) fun _ ↦ h rfl

theorem fits_of_kind? {t : Ty} {k : Kind} (h : t.kind? = some k) : t.Fits dec k :=
  ofKind_of_kind? h ▸ .ofKind k

theorem fits_castKind? {t : Ty} {a k : Kind} (h : t.castKind? a = some k) : t.Fits dec k := by
  match t, a with
  | .num (.machine (.integral _)), .num _ =>
    cases h
    exact .ofNum (fun h ↦ nomatch h) (by simp)
  | .num (.machine (.real _)), .num _ =>
    cases h
    exact .ofNum id (by simp)

end Ty

/-- A cast that converts leads from numbers to numbers. -/
theorem Ty.bool_iff_of_castKind? {t : Ty} {a k : Kind} (h : t.castKind? a = some k) :
    t = .bool ↔ a = .bool := by
  match t, a with
  | .num (.machine _), .num _ => simp

theorem Builtin.ty_fits {name : String} {f : Builtin} (hf : ofName? name = some f) :
    (if name = isNaNName then Ty.bool else .double).Fits dec f.kind := by
  rw [← ofKind_kind hf]
  exact .ofKind f.kind

namespace Expr

variable {e l r : Expr} {k : Kind} {ν : Valuation}

/-! ### Valuations -/

/-- A decimal constant occurs in the expression. -/
def HasDecimal (e : Expr) : Prop :=
  ∃ v, Expr.const v ∈ e.nodes ∧ v.ty = .decimal

/-- Every variable of the expression has a value of its type. -/
def TypedUnder (e : Expr) (ν : Valuation) : Prop :=
  ∀ x ∈ e.vars, ∃ v, ν.get? x = some v ∧ v.ty = x.ty

/-- The premises of safe evaluation: variables have values of their types, and decimal constants
occur only if `dec` holds. -/
structure Premises (dec : Prop) (ν : Valuation) (e : Expr) : Prop where
  typed : e.TypedUnder ν
  decimal : e.HasDecimal → dec

namespace Premises

/-- The premises are those of the subexpressions. -/
theorem sub (h : Premises dec ν e) (hn : l.nodes ⊆ e.nodes) (hv : l.vars ⊆ e.vars) :
    Premises dec ν l where
  typed x hx := h.typed x (hv hx)
  decimal := fun ⟨v, hmem, hdec⟩ ↦ h.decimal ⟨v, hn hmem, hdec⟩

theorem pair (h : Premises dec ν e) (hn : e.nodes = e :: (l.nodes ++ r.nodes))
    (hv : e.vars = l.vars ++ r.vars) : Premises dec ν l ∧ Premises dec ν r := by
  constructor
  · exact h.sub (fun n hl ↦ by simp [hn, hl]) fun x hx ↦ by simp [hv, hx]
  · exact h.sub (fun n hr ↦ by simp [hn, hr]) fun x hx ↦ by simp [hv, hx]

theorem arg {name : String} {args : List Expr} (h : Premises dec ν (.call name args))
    (he : e ∈ args) : Premises dec ν e :=
  h.sub (fun _ hn ↦ List.mem_cons_of_mem _ (mem_nodesAll.2 ⟨e, he, hn⟩)) fun _ hx ↦
    mem_varsAll.2 ⟨e, he, hx⟩

end Premises

/-! ### The declared type of an expression -/

/-- The declared type fits the kind of the term. -/
theorem ty_fits (h : e.kind? = some k) (hp : Premises dec ν e) : e.ty.Fits dec k := by
  induction e generalizing k with
  | const v =>
    obtain rfl : v.ty.constantKind = k := Option.some.inj h
    exact Ty.fits_constantKind fun hv ↦ hp.decimal ⟨v, self_mem_nodes _, hv⟩
  | var x => exact Ty.fits_of_kind? h
  | not e ih =>
    obtain ⟨-, rfl⟩ := kind?_not_eq_some h
    exact .ofBool
  | neg e ih =>
    obtain ⟨n, he, rfl⟩ := kind?_neg_eq_some h
    exact ih he (hp.sub (List.subset_cons_self _ _) (List.Subset.refl _))
  | compare op l r ihl ihr =>
    obtain ⟨_, _, _, -, -, -, rfl⟩ := kind?_compare_eq_some h
    exact .ofBool
  | arith op l r ihl ihr =>
    obtain ⟨a, b, u, ha, -, hu, rfl⟩ := kind?_arith_eq_some h
    obtain ⟨n, m, rfl, rfl, hu⟩ := Kind.unified?_eq_some hu
    exact (ihl ha (hp.pair rfl rfl).1).unified_left hu
  | connect op l r ihl ihr =>
    obtain rfl := kind?_connect_eq_some h
    exact .ofBool
  | bits op l r ihl ihr => exact ihl (kind?_bits_eq_some h).1 (hp.pair rfl rfl).1
  | cast target e ih =>
    rw [kind?] at h
    split at h
    · next ht => exact ht ▸ ih h (hp.sub (List.subset_cons_self _ _) (List.Subset.refl _))
    · obtain ⟨a, -, hcast⟩ := Option.bind_eq_some_iff.1 h
      exact Ty.fits_castKind? hcast
  | call name args ih =>
    obtain ⟨f, hf, rfl⟩ := kind?_call_eq_some h
    exact Builtin.ty_fits hf

/-! ### The value of an expression -/

/-- The expression is evaluated safely, and the type of its value fits the kind. -/
def SafeAt (dec : Prop) (ν : Valuation) (e : Expr) (k : Kind) : Prop :=
  Safe dec (fun v ↦ v.ty.Fits dec k) (e.evaluate ν)

theorem safe_evaluateAll {es : List Expr} (h : ∀ e ∈ es, ∃ n, SafeAt dec ν e (.num n)) :
    Safe dec (fun vs ↦ vs.length = es.length ∧ ∀ v ∈ vs, ∃ n, v.ty.Fits dec (.num n))
      (evaluateAll ν es) := by
  induction es with
  | nil => exact ⟨rfl, List.forall_mem_nil _⟩
  | cons e es ih =>
    rw [List.forall_mem_cons] at h
    obtain ⟨⟨n, he⟩, hes⟩ := h
    rw [evaluateAll]
    refine he.bind fun v hv ↦ (ih hes).bind fun vs hvs ↦ .of_eq_ok rfl ?_
    exact ⟨by rw [List.length_cons, List.length_cons, hvs.1],
      List.forall_mem_cons.2 ⟨⟨n, hv⟩, hvs.2⟩⟩

theorem safeAt_cast {target : Ty} {a : Kind} (he : SafeAt dec ν e a)
    (hbool : target = .bool ↔ a = .bool) (ht : target.Fits dec k) :
    SafeAt dec ν (.cast target e) k := by
  rw [SafeAt, evaluate]
  refine he.bind fun v hv ↦ (Value.safe_cast hv hbool ht.decimal).imp fun c hc ↦ ?_
  rwa [hc]

/-- An expression with a kind is evaluated safely, and the type of its value fits the kind. -/
theorem safeAt_of_kind? (h : e.kind? = some k) (hp : Premises dec ν e) : SafeAt dec ν e k := by
  induction e generalizing k with
  | const v =>
    obtain rfl : v.ty.constantKind = k := Option.some.inj h
    exact .of_eq_ok rfl (Ty.fits_constantKind fun hv ↦ hp.decimal ⟨v, self_mem_nodes _, hv⟩)
  | var x =>
    obtain ⟨v, hx, hv⟩ := hp.typed x List.mem_cons_self
    refine .of_eq_ok (a := v) (by rw [evaluate, hx]) ?_
    rw [hv]
    exact Ty.fits_of_kind? h
  | not e ih =>
    obtain ⟨he, rfl⟩ := kind?_not_eq_some h
    have hs := ih he (hp.sub (List.subset_cons_self _ _) (List.Subset.refl _))
    rw [SafeAt, evaluate]
    exact hs.bind fun v hv ↦ (Value.safe_expectBool hv).bind fun b _ ↦ .of_eq_ok rfl .ofBool
  | neg e ih =>
    obtain ⟨n, he, rfl⟩ := kind?_neg_eq_some h
    have hs := ih he (hp.sub (List.subset_cons_self _ _) (List.Subset.refl _))
    rw [SafeAt, evaluate]
    exact hs.bind fun v hv ↦ Value.safe_negate hv
  | compare op l r ihl ihr =>
    obtain ⟨a, b, u, ha, hb, hu, rfl⟩ := kind?_compare_eq_some h
    obtain ⟨n, m, rfl, rfl, -⟩ := Kind.unified?_eq_some hu
    obtain ⟨hl, hr⟩ := hp.pair rfl rfl
    rw [SafeAt, evaluate]
    exact (ihl ha hl).bind fun x hx ↦ (ihr hb hr).bind fun y hy ↦ Value.safe_compare op hx hy
  | arith op l r ihl ihr =>
    obtain ⟨a, b, u, ha, hb, hu, rfl⟩ := kind?_arith_eq_some h
    obtain ⟨n, m, rfl, rfl, hu⟩ := Kind.unified?_eq_some hu
    obtain ⟨hl, hr⟩ := hp.pair rfl rfl
    rw [SafeAt, evaluate]
    exact (ihl ha hl).bind fun x hx ↦ (ihr hb hr).bind fun y hy ↦
      Value.safe_arithmetic op hx hy hu
  | connect op l r ihl ihr =>
    cases op with
    | boolean op =>
      obtain ⟨ha, hb, rfl⟩ := kind?_boolean_eq_some h
      obtain ⟨hl, hr⟩ := hp.pair rfl rfl
      rw [SafeAt, evaluate]
      exact (ihl ha hl).bind fun x hx ↦ (Value.safe_expectBool hx).bind fun a _ ↦
        (ihr hb hr).bind fun y hy ↦ (Value.safe_expectBool hy).bind fun b _ ↦
          .of_eq_ok rfl .ofBool
    | iff => cases h
    | implies => cases h
  | bits op l r ihl ihr =>
    obtain ⟨w, ha, hb, rfl, -⟩ := kind?_bits_word h
    obtain ⟨hl, hr⟩ := hp.pair rfl rfl
    rw [SafeAt, evaluate]
    exact (ihl ha hl).bind fun x hx ↦ (ihr hb hr).bind fun y hy ↦ Value.safe_bits op hx hy
  | cast target e ih =>
    have he : Premises dec ν e := hp.sub (List.subset_cons_self _ _) (List.Subset.refl _)
    rw [kind?] at h
    split at h
    · next ht =>
      -- The term is that of the operand, and the target is the declared type, which fits it.
      have hfits : target.Fits dec k := ht ▸ ty_fits h he
      exact safeAt_cast (ih h he) hfits.bool_iff hfits
    · obtain ⟨a, ha, hcast⟩ := Option.bind_eq_some_iff.1 h
      exact safeAt_cast (ih ha he) (Ty.bool_iff_of_castKind? hcast) (Ty.fits_castKind? hcast)
  | call name args ih =>
    obtain ⟨f, hf, hn, ha, rfl⟩ := kind?_call_args h
    have hargs : ∀ e ∈ args, ∃ n, SafeAt dec ν e (.num n) := by
      intro e he
      obtain ⟨n, hk⟩ := ha e he
      exact ⟨n, ih e he hk (hp.arg he)⟩
    rw [SafeAt, evaluate]
    exact (safe_evaluateAll hargs).bind fun vs hvs ↦
      Value.safe_callValue hf (hvs.1.trans hn) hvs.2

/-! ### The pass -/

/-- What can be lowered is well typed. If a valuation gives the variables of such an expression
values of their types, its evaluation divides by zero, or fails to cast where a decimal constant
occurs, or gives a value. The value is a boolean exactly if the term is, and if it is no integer
then the term is a float. -/
theorem evaluate_of_lower_run {s s' : LoweringState} {t : KindedTerm} (hs : s.Reachable)
    (h : e.lower.run s = (.ok t, s')) (hν : e.TypedUnder ν) :
    (∀ err, e.evaluate ν = .error err →
      err = .divisionByZero ∨ e.HasDecimal ∧ ∃ source target, err = .cast source target) ∧
    ∀ v, e.evaluate ν = .ok v →
      (v.ty = .bool ↔ t.kind = .bool) ∧ (v.ty.isReal = true → t.kind.isReal = true) := by
  have hl := lowers_of_lower_run h
  have hk := hl.kind?_eq (hs.wellKinded.grows hl.grows).respects
  have hsafe : SafeAt e.HasDecimal ν e t.kind := safeAt_of_kind? hk ⟨hν, id⟩
  rw [SafeAt] at hsafe
  constructor
  · intro err herr
    rwa [herr] at hsafe
  · intro v hv
    rw [hv] at hsafe
    exact ⟨hsafe.bool_iff, hsafe.real⟩

end Expr

namespace DecimalSum

/-! The sum of a half and the float `d`, and a cast of `i + d` that is left out. -/

def i : Variable := ⟨"i", .int⟩

def d : Variable := ⟨"d", .double⟩

def sum : Expr := .arith .add (.const ⟨.decimal, ⟨5, 1⟩⟩) (.var d)

def castSum : Expr := .cast .int (.arith .add (.var i) (.var d))

def valuation (a : Word .w32) (b : BinaryFloat .w64) : Valuation :=
  ⟨[(i, .ofScalar ⟨.int, a⟩), (d, .ofScalar ⟨.double, b⟩)]⟩

theorem typedUnder (a : Word .w32) (b : BinaryFloat .w64) (x : Variable) (hx : x = i ∨ x = d) :
    ∃ v, (valuation a b).get? x = some v ∧ v.ty = x.ty := by
  rcases hx with rfl | rfl
  · exact ⟨_, rfl, rfl⟩
  · exact ⟨_, rfl, rfl⟩

/-- A NaN cannot be added to a half, which is possible because the half is a decimal. The value of
the cast is an integer although the term is a float. -/
theorem evaluate_of_lower_run_sum :
    (sum.evaluate (valuation 0 .nan) = .error (.cast .double .decimal) ∧ sum.HasDecimal) ∧
      ∃ v, castSum.evaluate (valuation 3 .nan) = .ok v ∧ (v.ty = .bool ↔ Kind.double = .bool) ∧
        (v.ty.isReal = true → Kind.double.isReal = true) := by
  have hsum : sum.evaluate (valuation 0 .nan) = .error (.cast .double .decimal) := rfl
  constructor
  · obtain hzero | ⟨hdec, -⟩ := (Expr.evaluate_of_lower_run (.initial 0) rfl fun x hx ↦
      typedUnder 0 .nan x (.inr (by simpa [sum, Expr.vars] using hx))).1 _ hsum
    · cases hzero
    · exact ⟨hsum, hdec⟩
  · have hcast : castSum.evaluate (valuation 3 .nan) = .ok ⟨.int, 0⟩ := rfl
    exact ⟨_, hcast, (Expr.evaluate_of_lower_run (t := ⟨.double, _⟩) (.initial 0) rfl fun x hx ↦
      typedUnder 3 .nan x (by simpa [castSum, Expr.vars] using hx)).2 _ hcast⟩

end DecimalSum

end ConstraintSearch

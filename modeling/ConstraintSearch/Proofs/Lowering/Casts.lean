import ConstraintSearch.Proofs.Lowering.Kinds

/-!
# Casts

A cast is lowered to a conversion, to 32-bit integers for the integral types and to 64-bit
floats for the others, unless its target is the declared type of the operand: such a cast is
left out. The declared type of an operator is that of its left operand, while the kind of its
term comes from both operands, so what is left out may have been needed. That happens for one
combination only: a cast to an integral type whose operand was lowered to a 64-bit float.
-/

namespace ConstraintSearch

/-- The kinds that the term of a cast to a type may have. -/
def NumKind.castKinds : NumKind → List NumKind
  | .int => [.int]
  | .long => [.int, .long]
  | .float => [.float, .double]
  | .double => [.double]

/-- The term `n` is the operand `m` of a cast to the type of `k`, converted to a kind that fits
this type. -/
def CastConverts (k : NumKind) (m : NumTerm) (n : KindedTerm) : Prop :=
  ∃ c ∈ k.castKinds, ∃ u : Term (.num c), n = ⟨.num c, u⟩ ∧
    ∀ σ, u.evaluate σ = m.kind.convert c <$> m.term.evaluate σ

/-- The cast to the type of `k` of an operand with the term `m` is left out although `m` is a
64-bit float and `k` a kind of integers. -/
def CastDropped (k : NumKind) (e : Expr) (m : NumTerm) : Prop :=
  k.isIntegral ∧ e.ty = .num (.machine k) ∧ m.kind = .double

namespace NumTerm

theorem ConvertsTo.castConverts {k c : NumKind} {m : NumTerm} {u : Term (.num c)}
    (h : m.ConvertsTo c u) (hc : c ∈ k.castKinds) : CastConverts k m ⟨.num c, u⟩ :=
  ⟨c, hc, u, rfl, h.evaluate⟩

end NumTerm

/-- The kinds that the operand of a cast to its own type may have. -/
theorem Expr.mem_castKinds {e : Expr} {k c : NumKind} (ht : e.ty = .num (.machine k))
    (hc : e.kind? = some (.num c)) : c ∈ k.castKinds ∨ k.isIntegral ∧ c = .double := by
  by_cases hp : (Kind.num c).Preserved
  · have hk := ty_eq_of_kind? hc hp
    rw [ht] at hk
    cases hk
    rcases k with (- | -) | (- | -) <;> simp [NumKind.castKinds]
  · obtain rfl | rfl : c = .int ∨ c = .double := by
      simpa [Kind.Preserved, or_iff_not_imp_left] using hp
    · rcases k with (- | -) | w
      · exact .inl (by simp [NumKind.castKinds])
      · exact .inl (by simp [NumKind.castKinds])
      · exact absurd hc (kind?_ne_integral ht)
    · rcases k with w | (- | -)
      · exact .inr ⟨rfl, rfl⟩
      · exact .inl (by simp [NumKind.castKinds])
      · exact .inl (by simp [NumKind.castKinds])

theorem NumKind.double_not_mem_castKinds {k : NumKind} (h : k.isIntegral) :
    NumKind.double ∉ k.castKinds := by
  rcases k with (- | -) | w
  · simp [castKinds]
  · simp [castKinds]
  · cases h

/-- A cast that is not left out converts. -/
theorem castConverts_of_ty_ne (k : NumKind) (m : NumTerm) :
    CastConverts k m (if k.isIntegral then ⟨.int, m.intoInt⟩ else ⟨.double, m.intoDouble⟩) := by
  rcases k with (- | -) | (- | -)
  · exact m.convertsTo_intoInt.castConverts (by simp [NumKind.castKinds])
  · exact m.convertsTo_intoInt.castConverts (by simp [NumKind.castKinds])
  · exact m.convertsTo_intoDouble.castConverts (by simp [NumKind.castKinds])
  · exact m.convertsTo_intoDouble.castConverts (by simp [NumKind.castKinds])

/-- The operand of a cast that is left out has a number as its term. -/
theorem exists_numTerm_of_ty {e : Expr} {n : KindedTerm} {k : NumKind}
    (ht : e.ty = .num (.machine k)) (hn : e.kind? = some n.kind) :
    ∃ m : NumTerm, n = m.toKinded := by
  obtain ⟨- | c, u⟩ := n
  · have hb := Expr.ty_eq_of_kind? hn (by simp [Kind.Preserved])
    rw [ht] at hb
    cases hb
  · exact ⟨⟨c, u⟩, rfl⟩

/-- Casts convert, with one exception. If a cast to a machine type can be lowered, then its
operand is lowered to a number. The term of the cast is that number converted to a kind that
fits the target, unless the cast is dropped, and then it is that number. -/
theorem Expr.lower_cast_converts {k : NumKind} {e : Expr} {n : KindedTerm}
    {s s' : LoweringState} (hs : s.Reachable)
    (h : (Expr.cast (.num (.machine k)) e).lower.run s = (.ok n, s')) :
    ∃ m : NumTerm, e.lower.run s = (.ok m.toKinded, s') ∧
      (CastConverts k m n ↔ ¬ CastDropped k e m) ∧ (CastDropped k e m → n = m.toKinded) := by
  by_cases he : e.ty = .num (.machine k)
  · rw [← he, lower_cast_self] at h
    have hs' : s'.WellKinded := hs.wellKinded.grows (lowers_of_lower_run h).grows
    have hk := (lowers_of_lower_run h).kind?_eq hs'.respects
    obtain ⟨m, rfl⟩ := exists_numTerm_of_ty he hk
    refine ⟨m, h, ⟨?_, fun hd ↦ ?_⟩, fun _ ↦ rfl⟩
    · rintro ⟨c, hc, u, hu, -⟩ ⟨hki, -, hm⟩
      have hcm : m.kind = c := by
        have hkind := congrArg KindedTerm.kind hu
        exact Kind.num.inj hkind
      exact NumKind.double_not_mem_castKinds hki (hm ▸ hcm ▸ hc)
    · have hc := (mem_castKinds he hk).resolve_right fun hi ↦ hd ⟨hi.1, he, hi.2⟩
      exact m.convertsTo_self.castConverts hc
  · obtain ⟨m, hm, rfl⟩ := (lower_cast_run_iff he).1 h
    refine ⟨m, hm, ⟨fun _ hd ↦ he hd.2.1, fun _ ↦ castConverts_of_ty_ne k m⟩, fun hd ↦ ?_⟩
    exact absurd hd.2.1 he

namespace CastDropped

/-! The sum of a narrow integer and a float, in both orders. -/

def i : Variable := ⟨"i", .int⟩

def d : Variable := ⟨"d", .double⟩

/-- In the sum `d + i`, which is declared a float, the cast converts. -/
theorem lower_cast_converts_sum :
    CastConverts .int ⟨.double, .arith .add (.lit 0) (.toDouble (n := .int) (.lit 1))⟩
      ⟨.int, .toInt (n := .double)
        (.arith .add (.lit 0) (.toDouble (n := .int) (.lit 1)))⟩ := by
  obtain ⟨⟨c, u⟩, hm, hiff, -⟩ := Expr.lower_cast_converts (k := .int)
    (e := .arith .add (.var d) (.var i)) (.initial 0) rfl
  cases hm
  exact hiff.2 fun hd ↦ nomatch hd.2.1

/-- In the sum `i + d`, which is declared an integer, the cast is dropped, and its term is a
float. -/
theorem cast_sum_not_converts :
    (Expr.cast .int (.arith .add (.var i) (.var d))).lower.run ⟨[], 0⟩ =
      (.ok ⟨.double, .arith .add (.toDouble (n := .int) (.lit 0)) (.lit 1)⟩,
        ⟨[⟨i, ⟨0, .int⟩⟩, ⟨d, ⟨1, .double⟩⟩], 2⟩) ∧
    ∀ m, ¬ CastConverts .int m
      ⟨.double, .arith .add (.toDouble (n := .int) (.lit 0)) (.lit 1)⟩ := by
  refine ⟨rfl, ?_⟩
  rintro m ⟨c, hc, u, hu, -⟩
  obtain rfl : c = .int := List.mem_singleton.1 hc
  cases hu

end CastDropped

end ConstraintSearch

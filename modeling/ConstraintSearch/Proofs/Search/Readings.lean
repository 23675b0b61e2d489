import ConstraintSearch.Proofs.Lowering.Bindings
import ConstraintSearch.Proofs.Search.Recovery

/-!
# Two readings of an assignment

What an engine assigns to a literal is read in two ways. Evaluation converts the scalar to the kind
of the literal. Recovery converts it to the kind of the variable's type, writes it down, and reads
the text as a value. Literals have the kinds of their variables, and text is read back, so both
readings come to the same number wherever a valuation is recovered. They part only where nothing is
assigned to a literal: then it has no value, but its variable has the seed.
-/

namespace ConstraintSearch

namespace Binding

variable {σ : Assignment} {b : Binding}

/-- A literal to which a scalar is assigned has the value that is recovered for its variable. -/
theorem evaluate_toTerm (h : b.Converts σ) (hσ : σ.contains b.literal.id) :
    b.literal.toTerm.evaluate σ = .ok ⟨b.literal.kind, b.datum σ⟩ := by
  have hlookup := lookup_eq_ok_iff.2 ⟨hσ, h.convert?_eq⟩
  exact KindedTerm.evaluate_eq_ok_iff.2 ⟨_, hlookup, rfl⟩

/-- For a literal to which nothing is assigned the seed is recovered. -/
theorem datum_eq_seed (hσ : ¬ σ.contains b.literal.id) :
    (⟨b.literal.kind, b.datum σ⟩ : Scalar) = b.literal.seed := by
  have hnone : σ.get? b.literal.id = none := Option.not_isSome_iff_eq_none.1 hσ
  have hscalar : b.scalar σ = b.literal.seed := by rw [scalar, hnone, Option.getD_none]
  have hconvert : b.literal.seed.convert? b.literal.kind = some b.literal.kind.seed :=
    Scalar.convert?_self b.literal.seed
  rw [datum, hscalar, hconvert]
  rfl

end Binding

/-- Wherever a valuation is recovered, every bound variable has a value of its type. It is the
value of the literal if a scalar is assigned to that, of whatever kind, and the seed of the literal
otherwise. -/
theorem recover_eq_evaluate {s s' : LoweringState} {e : Expr} {pc : PathCondition}
    {σ : Assignment} {ν ν' : Valuation} (hs : s.Reachable)
    (hlower : e.lowerCondition.run s = (.ok pc, s'))
    (hrecover : recover s'.bindings σ ν = .ok ν') :
    ∀ b ∈ s'.bindings, ∃ u : Scalar,
      ν'.get? b.var = some (.ofScalar u) ∧ Ty.ofKind u.kind = b.var.ty ∧
        if σ.contains b.literal.id then b.literal.toTerm.evaluate σ = .ok u
        else u = b.literal.seed := by
  have hreach : s'.Reachable := by
    have h := hs.lowerCondition e
    rwa [hlower] at h
  have hkind : ∀ b ∈ s'.bindings, b.var.ty.kind? = some b.literal.kind := fun b hb ↦
    hreach.wellKinded.kind?_eq hreach.unique hb
  obtain ⟨hconverts, rfl⟩ := (recover_eq_ok_iff hkind).1 hrecover
  intro b hb
  refine ⟨⟨b.literal.kind, b.datum σ⟩, get?_recovered_of_mem hreach.unique hb,
    Ty.ofKind_of_kind? (hkind b hb), ?_⟩
  split
  · next hσ => exact Binding.evaluate_toTerm (hconverts b hb) hσ
  · next hσ => exact Binding.datum_eq_seed hσ

namespace ForeignKinds

/-! A formula over variables of all types but decimals. The engine answers with a double that is no
number for the wide integer `n`, with a wide integer out of range for the narrow integer `i`, and
with an integer that no 32-bit float is for the float `f`; it leaves `d` out. -/

def b : Variable := ⟨"b", .bool⟩

def d : Variable := ⟨"d", .double⟩

def f : Variable := ⟨"f", .float⟩

def i : Variable := ⟨"i", .int⟩

def n : Variable := ⟨"n", .long⟩

def formula : Expr :=
  .connect (.boolean .and) (.connect (.boolean .or) (.var b) (.compare .le (.var f) (.var d)))
    (.compare .ne (.var i) (.var n))

def pass : LoweringState :=
  ⟨[⟨b, ⟨0, .bool⟩⟩, ⟨f, ⟨1, .float⟩⟩, ⟨d, ⟨2, .double⟩⟩, ⟨i, ⟨3, .int⟩⟩, ⟨n, ⟨4, .long⟩⟩], 5⟩

def assignment : Assignment :=
  ⟨[(0, ⟨.bool, false⟩), (1, ⟨.int, 16777217#32⟩), (3, ⟨.long, 4294967297#64⟩),
    (4, ⟨.double, .nan⟩)]⟩

theorem recover_eq_evaluate_formula :
    ∃ ν', recover pass.bindings assignment Table.empty = .ok ν' ∧
      ∀ b ∈ pass.bindings, ∃ u : Scalar,
        ν'.get? b.var = some (.ofScalar u) ∧ Ty.ofKind u.kind = b.var.ty ∧
          if assignment.contains b.literal.id then b.literal.toTerm.evaluate assignment = .ok u
          else u = b.literal.seed := by
  have hconverts : ∀ b ∈ pass.bindings, b.Converts assignment := by
    simp [pass, Binding.Converts, Binding.scalar, assignment, Table.get?, Table.find?,
      Scalar.convert?, Literal.seed, Scalar.seed]
  have hkind : ∀ b ∈ pass.bindings, b.var.ty.kind? = some b.literal.kind := by
    simp [pass, b, d, f, i, n, Ty.kind?]
  have hrecover := (recover_eq_ok_iff (ν := Table.empty) hkind).2 ⟨hconverts, rfl⟩
  have hlower : ∃ pc, formula.lowerCondition.run ⟨[], 0⟩ = (.ok pc, pass) := ⟨_, rfl⟩
  obtain ⟨pc, hpc⟩ := hlower
  exact ⟨_, hrecover, recover_eq_evaluate (.initial 0) hpc hrecover⟩

end ForeignKinds

end ConstraintSearch

import ConstraintSearch.Proofs.Scalar.Text
import ConstraintSearch.Proofs.Term.Evaluation
import ConstraintSearch.Search.Recovery

/-!
# Recovery of valuations

The way back from scalars to values goes through text. Since text is read back, what is recovered
for a variable is the number of its literal, whatever the kind of the scalar that the engine has
assigned to it. Where every literal has such a number, the whole valuation is recovered.
-/

namespace ConstraintSearch

/-! ### Tables built by insertions -/

namespace Table

variable {κ α : Type} [DecidableEq κ] [Ord κ] {t : Table κ α} {es : List (κ × α)} {k : κ} {a : α}

/-- A key that is not inserted keeps its value. -/
theorem get?_foldl_insert_of_notMem (h : k ∉ es.map Prod.fst) :
    (es.foldl (fun t e ↦ t.insert e.1 e.2) t).get? k = t.get? k := by
  induction es generalizing t with
  | nil => rfl
  | cons e es ih =>
    rw [List.map_cons, List.mem_cons, not_or] at h
    rw [List.foldl_cons, ih h.2, get?_insert, if_neg (Ne.symm h.1)]

/-- A key that is inserted once has the value it was inserted with. -/
theorem get?_foldl_insert_of_mem (hnodup : (es.map Prod.fst).Nodup) (h : (k, a) ∈ es) :
    (es.foldl (fun t e ↦ t.insert e.1 e.2) t).get? k = some a := by
  induction es generalizing t with
  | nil => cases h
  | cons e es ih =>
    rw [List.map_cons, List.nodup_cons] at hnodup
    rw [List.foldl_cons]
    rcases List.mem_cons.1 h with rfl | h
    · rw [get?_foldl_insert_of_notMem hnodup.1, get?_insert_self]
    · exact ih hnodup.2 h

end Table

/-! ### Values of variables -/

/-- What is recovered for a variable is its scalar, converted to the kind of its type; a scalar
that does not convert is refused. -/
theorem read_recoveredText {t : Ty} {k : Kind} (hk : t.kind? = some k) (u : Scalar) :
    Value.read t (recoveredText t u) =
      (u.convert? k).elim (.error ⟨t, u.text⟩) fun a ↦ .ok (.ofScalar ⟨k, a⟩) := by
  rcases ha : u.convert? k with - | a
  · have htext : recoveredText t u = u.text := by
      unfold recoveredText
      rw [hk]
      dsimp only
      rw [ha]
      split <;> rfl
    rw [htext, ← Ty.ofKind_of_kind? hk, Value.read_text_eq,
      Scalar.read_write_of_convert?_eq_none ha, Option.elim_none]
  · have htext : recoveredText t u = (⟨k, a⟩ : Scalar).text := by
      unfold recoveredText
      rw [hk]
      dsimp only
      split
      · next hu =>
        -- A scalar of the right kind is not converted, and converting it would not change it.
        subst hu
        rw [Scalar.convert?_self, Option.some.injEq] at ha
        rw [← ha]
      · rw [ha]
    rw [htext, ← Ty.ofKind_of_kind? hk]
    exact Value.read_text ⟨k, a⟩

namespace Binding

variable {σ : Assignment} {b : Binding}

/-- The scalar of the binding converts to the kind of the literal. -/
def Converts (σ : Assignment) (b : Binding) : Prop :=
  (b.scalar σ).convert? b.literal.kind ≠ none

/-- The datum that a literal has under an assignment: what is assigned to it, converted to its
kind, or else its seed. -/
def datum (σ : Assignment) (b : Binding) : b.literal.kind.Carrier :=
  ((b.scalar σ).convert? b.literal.kind).getD b.literal.kind.seed

/-- The value that is recovered for the variable. -/
def value (σ : Assignment) (b : Binding) : Value :=
  .ofScalar ⟨b.literal.kind, b.datum σ⟩

theorem Converts.convert?_eq (h : b.Converts σ) :
    (b.scalar σ).convert? b.literal.kind = some (b.datum σ) := by
  obtain ⟨a, ha⟩ := Option.ne_none_iff_exists'.1 h
  rw [datum, ha, Option.getD_some]

/-- A literal can be looked up if a scalar is assigned to it that converts to its kind. -/
theorem lookup_eq_ok_iff {a : b.literal.kind.Carrier} :
    σ.lookup b.literal.kind b.literal.id = .ok a ↔
      σ.contains b.literal.id ∧ (b.scalar σ).convert? b.literal.kind = some a := by
  unfold Assignment.lookup Table.contains scalar
  rcases σ.get? b.literal.id with - | u
  · simp
  · rw [Option.getD_some]
    dsimp only
    rcases u.convert? b.literal.kind with - | c <;> simp

theorem converts_of_lookup {a : b.literal.kind.Carrier}
    (h : σ.lookup b.literal.kind b.literal.id = .ok a) : b.Converts σ := by
  rw [Converts, (lookup_eq_ok_iff.1 h).2]
  exact Option.some_ne_none a

theorem lookup_datum {a : b.literal.kind.Carrier}
    (h : σ.lookup b.literal.kind b.literal.id = .ok a) :
    σ.lookup b.literal.kind b.literal.id = .ok (b.datum σ) :=
  lookup_eq_ok_iff.2 ⟨(lookup_eq_ok_iff.1 h).1, (converts_of_lookup h).convert?_eq⟩

end Binding

/-! ### Valuations -/

/-- The valuation with the recovered values of all bound variables. -/
def recovered (σ : Assignment) (bs : List Binding) (ν : Valuation) : Valuation :=
  (bs.map fun b ↦ (b.var, b.value σ)).foldl (fun ν e ↦ ν.insert e.1 e.2) ν

section

variable {σ : Assignment} {bs : List Binding} {ν ν' : Valuation}

theorem get?_recovered_of_mem (hnodup : (bs.map Binding.var).Nodup) {b : Binding} (hb : b ∈ bs) :
    (recovered σ bs ν).get? b.var = some (b.value σ) := by
  refine Table.get?_foldl_insert_of_mem ?_ (List.mem_map_of_mem hb)
  rwa [List.map_map]

theorem get?_recovered_of_notMem {x : Variable} (hx : x ∉ bs.map Binding.var) :
    (recovered σ bs ν).get? x = ν.get? x := by
  refine Table.get?_foldl_insert_of_notMem ?_
  rwa [List.map_map]

/-- Values are recovered exactly if the scalars of all bindings convert. -/
theorem recoverAll_eq_ok_iff {es : List (Variable × Value)}
    (hkind : ∀ b ∈ bs, b.var.ty.kind? = some b.literal.kind) :
    recoverAll σ bs = .ok es ↔
      (∀ b ∈ bs, b.Converts σ) ∧ (bs.map fun b ↦ (b.var, b.value σ)) = es := by
  induction bs generalizing es with
  | nil => simp [recoverAll]
  | cons b bs ih =>
    rw [List.forall_mem_cons] at hkind
    rw [recoverAll, read_recoveredText hkind.1, List.forall_mem_cons, List.map_cons]
    rcases ha : (b.scalar σ).convert? b.literal.kind with - | a
    · -- The first scalar does not convert, and the others are not looked at.
      have hb : ¬ b.Converts σ := fun h ↦ h ha
      show Except.error _ = _ ↔ _
      simp [hb]
    · have hb : b.Converts σ := by simp [Binding.Converts, ha]
      have hvalue : b.value σ = .ofScalar ⟨b.literal.kind, a⟩ := by
        rw [Binding.value, Binding.datum, ha, Option.getD_some]
      rw [hvalue]
      show (recoverAll σ bs >>= fun es ↦ .ok ((b.var, .ofScalar ⟨b.literal.kind, a⟩) :: es)) = _ ↔ _
      rw [bind_eq_ok_iff]
      simp only [ih hkind.2, hb, true_and, Except.ok.injEq]
      constructor
      · rintro ⟨_, ⟨hbs, rfl⟩, rfl⟩
        exact ⟨hbs, rfl⟩
      · rintro ⟨hbs, rfl⟩
        exact ⟨_, ⟨hbs, rfl⟩, rfl⟩

/-- A valuation is recovered exactly if the scalars of all bindings convert. -/
theorem recover_eq_ok_iff (hkind : ∀ b ∈ bs, b.var.ty.kind? = some b.literal.kind) :
    recover bs σ ν = .ok ν' ↔ (∀ b ∈ bs, b.Converts σ) ∧ recovered σ bs ν = ν' := by
  rw [recover, bind_eq_ok_iff]
  simp only [recoverAll_eq_ok_iff hkind, pure, Except.pure, Except.ok.injEq]
  constructor
  · rintro ⟨_, ⟨hbs, rfl⟩, rfl⟩
    exact ⟨hbs, rfl⟩
  · rintro ⟨hbs, rfl⟩
    exact ⟨_, ⟨hbs, rfl⟩, rfl⟩

/-- Where every literal can be looked up, all variables are recovered, and each of them has the
datum of its literal. -/
theorem exists_recover (hnodup : (bs.map Binding.var).Nodup)
    (hkind : ∀ b ∈ bs, b.var.ty.kind? = some b.literal.kind)
    (hlookup : ∀ b ∈ bs, ∃ a, σ.lookup b.literal.kind b.literal.id = .ok a) :
    ∃ ν', recover bs σ ν = .ok ν' ∧ ∀ b ∈ bs, ν'.get? b.var = some (b.value σ) := by
  refine ⟨_, (recover_eq_ok_iff hkind).2 ⟨fun b hb ↦ ?_, rfl⟩, fun b hb ↦
    get?_recovered_of_mem hnodup hb⟩
  obtain ⟨a, ha⟩ := hlookup b hb
  exact Binding.converts_of_lookup ha

end

end ConstraintSearch

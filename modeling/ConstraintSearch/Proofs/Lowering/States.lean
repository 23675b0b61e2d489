import ConstraintSearch.Lowering.Basic
import Mathlib.Data.List.Nodup

/-!
# States of a lowering pass

All that ever happens to the state of a lowering pass is that a variable which is not bound yet
is bound to the next literal of its kind. `LoweringState.Grows` is what such steps amount to, and
what it keeps holds of every state that lowering ever reaches: bound variables keep their
literals, no variable is bound twice, and literals have the kinds of their variables.
-/

namespace ConstraintSearch.LoweringState

variable {s s' s'' : LoweringState} {x y : Variable} {k : Kind} {l : Literal}

/-! ### One more binding -/

/-- The state in which a variable has been bound to the next literal of a kind. -/
def extend (s : LoweringState) (x : Variable) (k : Kind) : LoweringState :=
  ⟨s.bindings ++ [⟨x, ⟨s.next, k⟩⟩], s.next + 1⟩

theorem literal?_extend :
    (s.extend x k).literal? y =
      (s.literal? y).or (if x = y then some ⟨s.next, k⟩ else none) := by
  simp only [literal?, extend, List.find?_append, Option.map_or]
  by_cases hxy : x = y <;> simp [hxy]

theorem literal?_extend_self (h : s.literal? x = none) :
    (s.extend x k).literal? x = some ⟨s.next, k⟩ := by
  simp [literal?_extend, h]

theorem literal?_extend_of_some (h : s.literal? y = some l) :
    (s.extend x k).literal? y = some l := by
  simp [literal?_extend, h]

/-! ### Growth -/

/-- The second state comes from the first one by binding further variables. -/
inductive Grows (s : LoweringState) : LoweringState → Prop
  | refl : s.Grows s
  | step {s' : LoweringState} {x : Variable} {k : Kind} : s.Grows s' → s'.literal? x = none →
      x.ty.kind? = some k → s.Grows (s'.extend x k)

theorem Grows.trans (h : s.Grows s') (h' : s'.Grows s'') : s.Grows s'' := by
  induction h' with
  | refl => exact h
  | step _ hx hk ih => exact .step ih hx hk

/-- What is bound stays bound to the same literal. -/
theorem Grows.literal?_eq (h : s.Grows s') (hx : s.literal? x = some l) :
    s'.literal? x = some l := by
  induction h with
  | refl => exact hx
  | step _ _ _ ih => exact literal?_extend_of_some ih

/-! ### Invariants -/

/-- Every literal has the kind of its variable. -/
def WellKinded (s : LoweringState) : Prop :=
  ∀ x l, s.literal? x = some l → x.ty.kind? = some l.kind

theorem wellKinded_nil (n : Nat) : WellKinded ⟨[], n⟩ := by
  intro x l h
  cases h

theorem WellKinded.grows (hs : s.WellKinded) (h : s.Grows s') : s'.WellKinded := by
  induction h with
  | refl => exact hs
  | @step s₁ y k _ _ hk ih =>
    intro x l hl
    rw [literal?_extend, Option.or_eq_some_iff] at hl
    rcases hl with hl | ⟨-, hl⟩
    · exact ih x l hl
    · split at hl
      · next hyx =>
        subst hyx
        cases hl
        exact hk
      · cases hl

/-- No variable is bound twice. -/
def Unique (s : LoweringState) : Prop :=
  (s.bindings.map Binding.var).Nodup

theorem literal?_eq_none_iff : s.literal? x = none ↔ x ∉ s.bindings.map Binding.var := by
  simp [literal?]

/-- Only variables that are not bound yet are bound. -/
theorem Grows.mem_bindings (h : s.Grows s') {b : Binding} (hb : b ∈ s'.bindings) :
    b ∈ s.bindings ∨ b.var ∉ s.bindings.map Binding.var := by
  induction h with
  | refl => exact .inl hb
  | @step s₁ x k hs hx _ ih =>
    rcases List.mem_append.1 hb with hb | hb
    · exact ih hb
    · obtain rfl := List.mem_singleton.1 hb
      -- A variable that is bound at first is bound later on.
      refine .inr (literal?_eq_none_iff.1 (Option.eq_none_iff_forall_ne_some.2 fun l hl ↦ ?_))
      rw [hs.literal?_eq hl] at hx
      cases hx

theorem mem_bindings_of_literal? (h : s.literal? x = some l) : ⟨x, l⟩ ∈ s.bindings := by
  obtain ⟨b, hb, rfl⟩ := Option.map_eq_some_iff.1 h
  obtain rfl : b.var = x := by simpa using List.find?_some hb
  exact List.mem_of_find?_eq_some hb

/-- Every binding is the one that is found for its variable. -/
theorem Unique.literal?_eq (hs : s.Unique) {b : Binding} (hb : b ∈ s.bindings) :
    s.literal? b.var = some b.literal := by
  rcases hl : s.literal? b.var with - | l
  · exact absurd (List.mem_map_of_mem hb) (literal?_eq_none_iff.1 hl)
  · have hmem := mem_bindings_of_literal? hl
    have heq : b = ⟨b.var, l⟩ := List.inj_on_of_nodup_map hs hb hmem rfl
    rw [heq]

/-- Every binding has a literal of the kind of its variable. -/
theorem WellKinded.kind?_eq (hs : s.WellKinded) (hu : s.Unique) {b : Binding}
    (hb : b ∈ s.bindings) : b.var.ty.kind? = some b.literal.kind :=
  hs _ _ (hu.literal?_eq hb)

theorem unique_nil (n : Nat) : Unique ⟨[], n⟩ :=
  List.nodup_nil

theorem Unique.grows (hs : s.Unique) (h : s.Grows s') : s'.Unique := by
  induction h with
  | refl => exact hs
  | step _ hx _ ih =>
    rw [Unique, extend, List.map_append, List.nodup_append]
    refine ⟨ih, by simp, fun y hy z hz ↦ ?_⟩
    obtain rfl := List.mem_singleton.1 hz
    exact fun hyx ↦ literal?_eq_none_iff.1 hx (hyx ▸ hy)

end ConstraintSearch.LoweringState

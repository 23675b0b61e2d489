import ConstraintSearch.Proofs.Lowering.Derivation
import ConstraintSearch.Proofs.Term.Occurrences

/-!
# The order of binding

Lowering visits the variables of an expression from left to right, and binds each one that is not
bound yet. Where it fails it has visited only some of them, but then the first ones: whatever is
refused is refused before an operand is lowered or after it, so no variable is passed over. What a
request does to the state is therefore said by a list of variables, from whatever state and with
whatever outcome. The new ones of these are appended to the bindings, with consecutive numbers.
-/

namespace ConstraintSearch

namespace LoweringState

variable {s s' s'' : LoweringState} {xs ys : List Variable} {x y : Variable}

/-! ### Visits -/

/-- The second state comes from the first one by a visit of the variables in their order: a new
variable is bound to the next literal of its kind, and one that is bound is left as it is. -/
inductive Visits (s : LoweringState) : List Variable → LoweringState → Prop
  | nil : s.Visits [] s
  | bound {xs : List Variable} {s' : LoweringState} {x : Variable} {l : Literal} :
      s.Visits xs s' → s'.literal? x = some l → s.Visits (xs ++ [x]) s'
  | fresh {xs : List Variable} {s' : LoweringState} {x : Variable} {k : Kind} :
      s.Visits xs s' → s'.literal? x = none → x.ty.kind? = some k →
        s.Visits (xs ++ [x]) (s'.extend x k)

theorem Visits.append (h : s.Visits xs s') (h' : s'.Visits ys s'') : s.Visits (xs ++ ys) s'' := by
  induction h' with
  | nil => rwa [List.append_nil]
  | bound _ hx ih =>
    rw [← List.append_assoc]
    exact ih.bound hx
  | fresh _ hx hk ih =>
    rw [← List.append_assoc]
    exact ih.fresh hx hk

theorem Visits.grows (h : s.Visits xs s') : s.Grows s' := by
  induction h with
  | nil => exact .refl
  | bound _ _ ih => exact ih
  | fresh _ hx hk ih => exact .step ih hx hk

/-- Besides what was bound before, what has been visited is bound. -/
theorem Visits.literal?_eq_none_iff (h : s.Visits xs s') :
    s'.literal? y = none ↔ s.literal? y = none ∧ y ∉ xs := by
  induction h with
  | nil => simp
  | @bound xs s' x l _ hx ih =>
    by_cases hyx : y = x
    · subst hyx
      simp [hx]
    · simp [ih, hyx]
  | @fresh xs s' x k _ hx _ ih =>
    rw [literal?_extend, Option.or_eq_none_iff, ih]
    by_cases hyx : x = y
    · simp [hyx]
    · simp [hyx, Ne.symm hyx]

/-- The bound variables are those that have been visited, after the ones that were bound before. -/
theorem Visits.boundVars (h : s.Visits xs s') :
    SameFirsts (s.bindings.map Binding.var ++ xs) (s'.bindings.map Binding.var) := by
  induction h with
  | nil => exact congrArg _ (List.append_nil _)
  | @bound xs s' x l _ hx ih =>
    have hmem : [x] ⊆ s'.bindings.map Binding.var := fun y hy ↦ by
      obtain rfl := List.mem_singleton.1 hy
      exact List.mem_map_of_mem (f := Binding.var) (mem_bindings_of_literal? hx)
    rw [← List.append_assoc]
    exact (ih.append rfl).trans (SameFirsts.append_of_subset hmem)
  | fresh _ _ _ ih =>
    rw [extend, List.map_append, ← List.append_assoc]
    exact ih.append rfl

/-! ### New variables -/

/-- The variables that are not bound in the state, each once, in the order in which they come
first. -/
def newVars (s : LoweringState) (xs : List Variable) : List Variable :=
  xs.eraseDups.filter fun x ↦ s.literal? x = none

theorem newVars_append (s : LoweringState) (xs ys : List Variable) :
    s.newVars (xs ++ ys) = s.newVars xs ++ s.newVars (ys.removeAll xs) := by
  rw [newVars, List.eraseDups_append, List.filter_append]
  rfl

theorem newVars_concat_of_new (hx : s.literal? x = none) (hxs : x ∉ xs) :
    s.newVars (xs ++ [x]) = s.newVars xs ++ [x] := by
  rw [newVars_append]
  simp [newVars, List.removeAll, List.eraseDups_cons, hx, hxs]

theorem newVars_concat_of_old (h : ¬ (s.literal? x = none ∧ x ∉ xs)) :
    s.newVars (xs ++ [x]) = s.newVars xs := by
  rw [newVars_append]
  by_cases hxs : x ∈ xs
  · simp [newVars, List.removeAll, hxs]
  · have hx : s.literal? x ≠ none := fun hx ↦ h ⟨hx, hxs⟩
    simp [newVars, List.removeAll, List.eraseDups_cons, hx, hxs]

/-! ### Appended bindings -/

/-- The bindings are those of the given variables in their order, to literals of their kinds with
consecutive numbers. -/
structure BindsFrom (n : Nat) (xs : List Variable) (bs : List Binding) : Prop where
  vars : bs.map Binding.var = xs
  ids : bs.map (fun b ↦ b.literal.id) = List.range' n xs.length
  kinds : ∀ b ∈ bs, b.var.ty.kind? = some b.literal.kind

/-- The second state comes from the first one by appending bindings of the variables, which take
the numbers from the next one on. -/
def Appends (s : LoweringState) (xs : List Variable) (s' : LoweringState) : Prop :=
  ∃ bs, BindsFrom s.next xs bs ∧ s' = ⟨s.bindings ++ bs, s.next + xs.length⟩

theorem appends_nil (s : LoweringState) : s.Appends [] s :=
  ⟨[], ⟨rfl, rfl, List.forall_mem_nil _⟩, by rw [List.append_nil]; rfl⟩

theorem Appends.extend {k : Kind} (h : s.Appends xs s') (hk : x.ty.kind? = some k) :
    s.Appends (xs ++ [x]) (s'.extend x k) := by
  obtain ⟨bs, hbs, rfl⟩ := h
  refine ⟨bs ++ [⟨x, s.next + xs.length, k⟩], ⟨?_, ?_, ?_⟩, ?_⟩
  · rw [List.map_append, hbs.vars]
    rfl
  · rw [List.map_append, hbs.ids, List.length_append, List.length_singleton, List.range'_concat]
    simp
  · exact List.forall_mem_append.2 ⟨hbs.kinds, List.forall_mem_singleton.2 hk⟩
  · rw [LoweringState.extend, List.append_assoc, List.length_append, List.length_singleton,
      Nat.add_assoc]

/-- What has been visited is appended as far as it is new. -/
theorem Visits.appends (h : s.Visits xs s') : s.Appends (s.newVars xs) s' := by
  induction h with
  | nil => exact appends_nil s
  | bound h hx ih =>
    rw [newVars_concat_of_old]
    · exact ih
    · rw [← h.literal?_eq_none_iff, hx]
      simp
  | fresh h hx hk ih =>
    obtain ⟨hnew, hxs⟩ := h.literal?_eq_none_iff.1 hx
    rw [newVars_concat_of_new hnew hxs]
    exact ih.extend hk

end LoweringState

namespace Lower

variable {α β : Type} {xs ys : List Variable}

theorem run_bind {m : Lower α} {f : α → Lower β} {s : LoweringState} :
    (m >>= f).run s = match m.run s with
      | (.ok a, s') => (f a).run s'
      | (.error e, s') => (.error e, s') := by
  unfold run
  rw [EStateM.run_bind]
  rcases EStateM.run m s with ⟨a, s'⟩ | ⟨e, s'⟩ <;> rfl

/-! ### Steps that visit variables -/

/-- Wherever the step is run, it visits the variables from the first one on, and all of them if it
succeeds. -/
def Visits (m : Lower α) (xs : List Variable) : Prop :=
  ∀ s : LoweringState, ∃ ys, ys <+: xs ∧ s.Visits ys (m.run s).2 ∧
    ∀ a, (m.run s).1 = .ok a → ys = xs

theorem visits_pure (a : α) : (pure a : Lower α).Visits [] :=
  fun _ ↦ ⟨[], List.nil_prefix, .nil, fun _ _ ↦ rfl⟩

theorem visits_throw (e : LoweringError) (xs : List Variable) : (throw e : Lower α).Visits xs :=
  fun _ ↦ ⟨[], List.nil_prefix, .nil, fun _ h ↦ nomatch h⟩

theorem visits_require (x : Except LoweringError α) : (require x).Visits [] := by
  cases x with
  | ok a => exact visits_pure a
  | error e => exact visits_throw e []

/-- After the variables of the first step come those of the second one. -/
theorem Visits.bind {m : Lower α} {f : α → Lower β} (hm : m.Visits xs)
    (hf : ∀ a, (f a).Visits ys) : (m >>= f).Visits (xs ++ ys) := by
  intro s
  obtain ⟨zs, hzs, hvisits, hall⟩ := hm s
  rw [run_bind]
  rcases hrun : m.run s with ⟨e | a, s'⟩
  · rw [hrun] at hvisits
    exact ⟨zs, hzs.trans (List.prefix_append _ _), hvisits, fun _ h ↦ nomatch h⟩
  · rw [hrun] at hvisits hall
    obtain rfl : zs = xs := hall a rfl
    obtain ⟨ws, hws, hvisits', hall'⟩ := hf a s'
    exact ⟨zs ++ ws, (List.prefix_append_right_inj _).2 hws, hvisits.append hvisits',
      fun b hb ↦ by rw [hall' b hb]⟩

/-- A step of which something is required, followed by another step. -/
theorem Visits.require {γ : Type} {m : Lower α} {g : α → Except LoweringError β}
    {f : β → Lower γ} (hm : m.Visits xs) (hf : ∀ b, (f b).Visits ys) :
    (m >>= fun a ↦ Lower.require (g a) >>= f).Visits (xs ++ ys) :=
  hm.bind fun _ ↦ (visits_require _).bind hf

/-- After the last variable nothing is visited. -/
theorem Visits.last {m : Lower α} {f : α → Lower β} (hm : m.Visits xs)
    (hf : ∀ a, (f a).Visits []) : (m >>= f).Visits xs := by
  have h := hm.bind hf
  rwa [List.append_nil] at h

/-- A last step of which something is required. -/
theorem Visits.require_last {γ : Type} {m : Lower α} {g : α → Except LoweringError β}
    {f : β → Lower γ} (hm : m.Visits xs) (hf : ∀ b, (f b).Visits []) :
    (m >>= fun a ↦ Lower.require (g a) >>= f).Visits xs :=
  hm.last fun _ ↦ (visits_require _).last hf

theorem visits_bind_var (x : Variable) : (Lower.bind x).Visits [x] := by
  intro s
  unfold Lower.bind
  rw [run_get_bind]
  rcases hx : s.literal? x with - | l
  · rcases hk : x.ty.kind? with - | k
    · exact ⟨[], List.nil_prefix, .nil, fun _ h ↦ nomatch h⟩
    · exact ⟨[x], List.prefix_rfl, .fresh .nil hx hk, fun _ _ ↦ rfl⟩
  · exact ⟨[x], List.prefix_rfl, .bound .nil hx, fun _ _ ↦ rfl⟩

end Lower

namespace Expr

open Lower

theorem lowerAll_visits {es : List Expr} (h : ∀ e ∈ es, e.lower.Visits e.vars) :
    (lowerAll es).Visits (varsAll es) := by
  induction es with
  | nil => exact visits_pure []
  | cons e es ih =>
    rw [lowerAll, varsAll]
    exact (h e (by simp)).require fun _ ↦
      (ih fun a ha ↦ h a (by simp [ha])).last fun _ ↦ visits_pure _

/-- Lowering visits the variables of the expression from left to right, up to where it fails. -/
theorem lower_visits (e : Expr) : e.lower.Visits e.vars := by
  induction e with
  | const v => exact visits_pure _
  | var x => exact (visits_bind_var x).last fun _ ↦ visits_pure _
  | not e ih => exact ih.require_last fun _ ↦ visits_pure _
  | neg e ih => exact ih.require_last fun _ ↦ visits_require _
  | compare op l r ihl ihr =>
    rw [lower]
    exact ihl.require fun _ ↦ ihr.require_last fun _ ↦ visits_require _
  | arith op l r ihl ihr =>
    rw [lower]
    exact ihl.require fun _ ↦ ihr.require_last fun _ ↦ visits_require _
  | connect op l r ihl ihr =>
    cases op with
    | boolean op =>
      rw [lower]
      exact ihl.require fun _ ↦ ihr.require_last fun _ ↦ visits_pure _
    | iff => exact visits_throw _ _
    | implies => exact visits_throw _ _
  | bits op l r ihl ihr =>
    rw [lower]
    exact ihl.require fun _ ↦ ihr.require_last fun _ ↦ visits_require _
  | cast target e ih =>
    unfold lower
    split
    · exact ih
    · split
      · exact ih.last fun _ ↦ visits_require _
      · exact visits_throw _ _
  | call name args ih =>
    unfold lower
    rcases Builtin.ofName? name with - | f
    · exact visits_throw _ _
    · show (if _ then _ >>= _ else _ : Lower KindedTerm).Visits _
      split
      · refine (lowerAll_visits ih).last fun ts ↦ ?_
        rcases application? f ts with - | t
        · exact visits_throw _ _
        · exact visits_pure t
      · exact visits_throw _ _

/-- Whether a term is a boolean is found out when all its variables have been visited. -/
theorem lowerCondition_visits (e : Expr) : e.lowerCondition.Visits e.vars :=
  e.lower_visits.require_last fun _ ↦ visits_pure _

end Expr

namespace Lowers

variable {s s' s'' : LoweringState} {e : Expr} {t : KindedTerm}

/-- A success has visited all variables. -/
theorem visits (h : Lowers s e t s') : s.Visits e.vars s' := by
  obtain ⟨xs, -, hvisits, hall⟩ := e.lower_visits s
  rw [Expr.lower_run_of_lowers h] at hvisits hall
  rwa [← hall t rfl]

theorem grows (h : Lowers s e t s') : s.Grows s' :=
  h.visits.grows

end Lowers

end ConstraintSearch

import ConstraintSearch.Lowering.Passes
import ConstraintSearch.Proofs.Lowering.Bindings
import Mathlib.Data.List.Perm.Basic

/-!
# Passes with a common supply

Passes that take their literals from one supply never share a number. A request appends to the
bindings of its own pass only, and takes the numbers from the supply without a gap
(`LoweringState.Appends`), so the numbers in all the passes together are those that the supply has
given since it started, each of them once. What a pass has bound it keeps, so a term that it has
returned has its literals among the bindings of the pass however the passes go on.
-/

namespace ConstraintSearch

/-! ### The supply -/

namespace LoweringPasses

variable {s s' : LoweringPasses} {n i : Nat} {bs : List Binding} {α : Type} {m : Lower α}
  {xs : List Variable}

/-- The passes with a supply that has started at `n`: the numbers of all bindings are those that it
has given, no pass has bound a variable twice, and literals have the kinds of their variables. -/
structure Supplied (n : Nat) (s : LoweringPasses) : Prop where
  ids : (s.passes.flatten.map fun b ↦ b.literal.id).Perm (List.range' n s.passes.flatten.length)
  next : s.next = n + s.passes.flatten.length
  unique : ∀ bs ∈ s.passes, (bs.map Binding.var).Nodup
  kinds : ∀ b ∈ s.passes.flatten, b.var.ty.kind? = some b.literal.kind

/-- No pass has lost a binding, and those that it has gained come behind the others. -/
def Keeps (s s' : LoweringPasses) : Prop :=
  ∀ (i : Nat) (bs : List Binding), s.passes[i]? = some bs →
    ∃ cs, s'.passes[i]? = some cs ∧ bs <+: cs

theorem supplied_nil (n : Nat) : Supplied n ⟨[], 0, n⟩ where
  ids := .nil
  next := rfl
  unique := List.forall_mem_nil _
  kinds := List.forall_mem_nil _

theorem flatten_addPass (s : LoweringPasses) : s.addPass.passes.flatten = s.passes.flatten := by
  simp [addPass]

theorem Supplied.addPass (h : s.Supplied n) : s.addPass.Supplied n where
  ids := by
    rw [flatten_addPass]
    exact h.ids
  next := by
    rw [flatten_addPass]
    exact h.next
  unique := List.forall_mem_append.2 ⟨h.unique, List.forall_mem_singleton.2 List.nodup_nil⟩
  kinds := by
    rw [flatten_addPass]
    exact h.kinds

theorem keeps_addPass (s : LoweringPasses) : s.Keeps s.addPass := by
  intro i bs hbs
  obtain ⟨hi, -⟩ := List.getElem?_eq_some_iff.1 hbs
  refine ⟨bs, ?_, List.prefix_rfl⟩
  rw [addPass, List.getElem?_append_left hi, hbs]

/-! ### A request -/

/-- A request to a pass that exists is one in the state of that pass. -/
theorem run_select (m : Lower α) (hbs : s.passes[i]? = some bs) :
    (s.select i).run m =
      ((m.run ⟨bs, s.next⟩).1,
        ⟨s.passes.set i (m.run ⟨bs, s.next⟩).2.bindings, i, (m.run ⟨bs, s.next⟩).2.next⟩) := by
  have hbindings : (s.select i).bindings = bs := by simp [bindings, select, hbs]
  rw [run, hbindings]
  rfl

/-- It appends to the bindings of the pass, and leaves the other passes as they are. -/
theorem run_select_snd (hbs : s.passes[i]? = some bs) (hm : m.Visits xs) :
    ∃ ys new, LoweringState.BindsFrom s.next ys new ∧
      (m.run ⟨bs, s.next⟩).2 = ⟨bs ++ new, s.next + ys.length⟩ ∧
      ((s.select i).run m).2 = ⟨s.passes.set i (bs ++ new), i, s.next + ys.length⟩ := by
  obtain ⟨zs, -, hvisits, -⟩ := hm ⟨bs, s.next⟩
  obtain ⟨new, hnew, hrun⟩ := hvisits.appends
  refine ⟨_, new, hnew, hrun, ?_⟩
  rw [run_select m hbs, hrun]

theorem flatten_set_perm {passes : List (List Binding)} (new : List Binding)
    (hbs : passes[i]? = some bs) :
    (passes.set i (bs ++ new)).flatten.Perm (passes.flatten ++ new) := by
  induction passes generalizing i with
  | nil => simp at hbs
  | cons cs passes ih =>
    cases i with
    | zero =>
      obtain rfl : cs = bs := by simpa using hbs
      simp only [List.set_cons_zero, List.flatten_cons, List.append_assoc]
      exact List.perm_append_comm.append_left cs
    | succ i =>
      simp only [List.set_cons_succ, List.flatten_cons, List.append_assoc]
      exact (ih (by simpa using hbs)).append_left cs

theorem Supplied.run (h : s.Supplied n) (hbs : s.passes[i]? = some bs) (hm : m.Visits xs) :
    ((s.select i).run m).2.Supplied n := by
  obtain ⟨ys, new, hnew, hpass, hrun⟩ := run_select_snd hbs hm
  -- The new bindings stand in the middle of all bindings if the pass is not the last one, so the
  -- numbers are those of the supply in another order.
  have hperm := flatten_set_perm new hbs
  have hlength : (s.passes.set i (bs ++ new)).flatten.length =
      s.passes.flatten.length + ys.length := by
    rw [hperm.length_eq, List.length_append, ← hnew.vars, List.length_map]
  rw [hrun]
  refine ⟨?_, ?_, fun cs hcs ↦ ?_, fun b hb ↦ ?_⟩
  · have hrange : List.range' n (s.passes.flatten.length + ys.length) =
        List.range' n s.passes.flatten.length ++ List.range' s.next ys.length := by
      rw [h.next, List.range'_append_1]
    show (List.map _ (s.passes.set i (bs ++ new)).flatten).Perm
      (List.range' n (s.passes.set i (bs ++ new)).flatten.length)
    rw [hlength, hrange]
    refine (hperm.map _).trans ?_
    rw [List.map_append, hnew.ids]
    exact h.ids.append_right _
  · show s.next + ys.length = n + (s.passes.set i (bs ++ new)).flatten.length
    rw [hlength, h.next, Nat.add_assoc]
  · rcases List.mem_or_eq_of_mem_set hcs with hcs | rfl
    · exact h.unique cs hcs
    · have hunique : LoweringState.Unique ⟨bs, s.next⟩ :=
        h.unique bs (List.mem_of_getElem? hbs)
      have hgrows := hm.extends ⟨bs, s.next⟩
      rw [hpass] at hgrows
      exact hunique.grows hgrows
  · rcases List.mem_append.1 (hperm.mem_iff.1 hb) with hb | hb
    · exact h.kinds b hb
    · exact hnew.kinds b hb

theorem keeps_run (hbs : s.passes[i]? = some bs) (hm : m.Visits xs) :
    s.Keeps ((s.select i).run m).2 := by
  intro j cs hcs
  obtain ⟨ys, new, -, -, hrun⟩ := run_select_snd hbs hm
  rw [hrun]
  by_cases hij : i = j
  · subst hij
    obtain rfl : bs = cs := Option.some.inj (hbs.symm.trans hcs)
    obtain ⟨hi, -⟩ := List.getElem?_eq_some_iff.1 hbs
    exact ⟨bs ++ new, List.getElem?_set_self hi, List.prefix_append _ _⟩
  · exact ⟨cs, (List.getElem?_set_ne hij).trans hcs, List.prefix_rfl⟩

end LoweringPasses

/-! ### Requests one after the other -/

/-- What is asked of passes with a common supply. -/
inductive PassCall
  /-- A further pass. -/
  | create
  /-- The term of an expression, from one of the passes. -/
  | term (pass : Nat) (e : Expr)
  /-- The path condition of an expression, from one of the passes. -/
  | condition (pass : Nat) (e : Expr)

/-- Passes that have answered a number of requests, and the terms that they have returned, each with
the pass from which it comes. -/
structure PassHistory where
  passes : LoweringPasses
  returned : List (Nat × KindedTerm)

namespace PassHistory

/-- No passes yet, and a supply that starts at a number. -/
def start (n : Nat) : PassHistory :=
  ⟨⟨[], 0, n⟩, []⟩

/-- Asks one of the passes, which returns terms if it succeeds. A pass that does not exist is not
asked. -/
def request {α : Type} (h : PassHistory) (i : Nat) (m : Lower α) (terms : α → List KindedTerm) :
    PassHistory :=
  if i < h.passes.passes.length then
    let (result, passes) := (h.passes.select i).run m
    ⟨passes, h.returned ++ (result.toOption.elim [] terms).map fun t ↦ (i, t)⟩
  else h

def call (h : PassHistory) : PassCall → PassHistory
  | .create => { h with passes := h.passes.addPass }
  | .term i e => h.request i e.lower fun t ↦ [t]
  | .condition i e => h.request i e.lowerCondition fun pc ↦ pc.constraints.map Lower.ofBool

/-- The passes after a list of requests, with a supply that has started at a number. -/
def after (n : Nat) (calls : List PassCall) : PassHistory :=
  calls.foldl call (start n)

end PassHistory

/-- All literals in the term are bound, at the kinds at which they occur. -/
def BindsLiterals (bs : List Binding) (t : KindedTerm) : Prop :=
  ∀ o ∈ t.term.occurrences, ∃ b ∈ bs, b.literal = ⟨o.1, o.2⟩

theorem BindsLiterals.mono {bs cs : List Binding} {t : KindedTerm} (h : BindsLiterals bs t)
    (hcs : bs <+: cs) : BindsLiterals cs t := by
  intro o ho
  obtain ⟨b, hb, hbo⟩ := h o ho
  exact ⟨b, hcs.subset hb, hbo⟩

theorem Lowers.bindsLiterals {s s' : LoweringState} {e : Expr} {t : KindedTerm}
    (h : Lowers s e t s') : BindsLiterals s'.bindings t := by
  intro o ho
  obtain ⟨x, -, hx⟩ := h.mirrors.exists_var ho
  exact ⟨_, LoweringState.mem_bindings_of_literal? hx, rfl⟩

namespace PassHistory

variable {n : Nat} {h : PassHistory}

/-- The supply has been used as it should be, and the literals of the returned terms are bound. -/
structure Consistent (n : Nat) (h : PassHistory) : Prop where
  supplied : h.passes.Supplied n
  bound : ∀ r ∈ h.returned, ∃ bs, h.passes.passes[r.1]? = some bs ∧ BindsLiterals bs r.2

/-- What a pass has returned stays bound when passes gain bindings. -/
theorem Consistent.bound_of_keeps {s : LoweringPasses} (hc : h.Consistent n)
    (hs : h.passes.Keeps s) :
    ∀ r ∈ h.returned, ∃ bs, s.passes[r.1]? = some bs ∧ BindsLiterals bs r.2 := by
  intro r hr
  obtain ⟨bs, hbs, hbound⟩ := hc.bound r hr
  obtain ⟨cs, hcs, hprefix⟩ := hs r.1 bs hbs
  exact ⟨cs, hcs, hbound.mono hprefix⟩

theorem Consistent.request {α : Type} {m : Lower α} {xs : List Variable}
    {terms : α → List KindedTerm} (hc : h.Consistent n) (i : Nat) (hm : m.Visits xs)
    (hterms : ∀ {s s' : LoweringState} {a : α}, m.run s = (.ok a, s') →
      ∀ t ∈ terms a, BindsLiterals s'.bindings t) : (h.request i m terms).Consistent n := by
  unfold PassHistory.request
  split
  · next hi =>
    have hbs : h.passes.passes[i]? = some h.passes.passes[i] := List.getElem?_eq_getElem hi
    refine ⟨hc.supplied.run hbs hm, List.forall_mem_append.2
      ⟨hc.bound_of_keeps (LoweringPasses.keeps_run hbs hm), fun r hr ↦ ?_⟩⟩
    obtain ⟨t, ht, rfl⟩ := List.mem_map.1 hr
    -- A new term is looked at in the state of its pass, where nothing else has happened since.
    rw [LoweringPasses.run_select m hbs] at ht ⊢
    refine ⟨_, List.getElem?_set_self hi, ?_⟩
    rcases hrun : m.run ⟨h.passes.passes[i], h.passes.next⟩ with ⟨e | a, s'⟩
    · rw [hrun] at ht
      cases ht
    · rw [hrun] at ht
      exact hterms hrun t ht
  · exact hc

theorem Consistent.call (hc : h.Consistent n) (c : PassCall) : (h.call c).Consistent n := by
  cases c with
  | create =>
    exact ⟨hc.supplied.addPass, hc.bound_of_keeps (LoweringPasses.keeps_addPass _)⟩
  | term i e =>
    refine hc.request i e.lower_visits fun hrun t ht ↦ ?_
    obtain rfl := List.mem_singleton.1 ht
    exact (Expr.lower_run_iff.1 hrun).bindsLiterals
  | condition i e =>
    refine hc.request i e.lowerCondition_visits fun hrun t ht ↦ ?_
    obtain ⟨b, hb, rfl⟩ := Expr.lowerCondition_run_iff.1 hrun
    obtain rfl := List.mem_singleton.1 ht
    exact hb.bindsLiterals

theorem consistent_after (n : Nat) (calls : List PassCall) : (after n calls).Consistent n := by
  have hrun : ∀ {h : PassHistory}, h.Consistent n → (calls.foldl call h).Consistent n := by
    induction calls with
    | nil => exact id
    | cons c calls ih => exact fun hc ↦ ih (hc.call c)
  exact hrun ⟨LoweringPasses.supplied_nil n, List.forall_mem_nil _⟩

/-- Whatever passes with a common supply are asked for, and whether it is granted or refused, the
numbers of their literals are all different; they are bound to variables of their kinds, from which
they have their seeds; the supply has given as many numbers as there are bindings; and every literal
in a term that a pass has returned is bound in that pass, at the kind at which it occurs. -/
theorem supply_after (n : Nat) (calls : List PassCall) :
    let h := after n calls
    (h.passes.passes.flatten.map fun b ↦ b.literal.id).Nodup ∧
      (∀ bs ∈ h.passes.passes, (bs.map Binding.var).Nodup) ∧
      (∀ b ∈ h.passes.passes.flatten, ∃ k, b.var.ty.kind? = some k ∧ b.literal.kind = k ∧
        b.literal.seed = Scalar.seed k) ∧
      h.passes.next = n + h.passes.passes.flatten.length ∧
      ∀ r ∈ h.returned, ∃ bs, h.passes.passes[r.1]? = some bs ∧
        ∀ o ∈ r.2.term.occurrences, ∃ b ∈ bs, b.literal = ⟨o.1, o.2⟩ := by
  have hc := consistent_after n calls
  refine ⟨?_, hc.supplied.unique, fun b hb ↦ ?_, hc.supplied.next, hc.bound⟩
  · exact hc.supplied.ids.nodup_iff.2 List.nodup_range'
  · exact ⟨b.literal.kind, hc.supplied.kinds b hb, rfl, rfl⟩

end PassHistory

end ConstraintSearch

import ConstraintSearch.Proofs.Search.Recovery
import ConstraintSearch.Proofs.Term.Literals
import ConstraintSearch.Search.Grid
import Mathlib.Algebra.BigOperators.Group.List.Basic
import Mathlib.Data.List.Nodup

/-!
# Grid search

The odometer of the grid search runs through all points of the grid, each once, in the order in
which the first literal changes fastest: after `n` steps it has the reading of number `n` in the
list of all readings, and it stops at the last one (`advance_of_getElem?`). So the search tries the
points in this order up to the first one that satisfies the path condition, or to the budget.
-/

namespace ConstraintSearch.Grid

variable {axes : List (Nat × List Scalar)} {places : List Nat} {pc : PathCondition}

/-! ### The odometer -/

/-- All readings of the odometer. The first wheel turns fastest. -/
def readings : List (Nat × List Scalar) → List (List Nat)
  | [] => [[]]
  | (_, values) :: axes =>
    (readings axes).flatMap fun places ↦ (List.range values.length).map (· :: places)

/-- An element of a row of blocks of one length is found by the number of its block and its place
in the block. -/
theorem getElem?_flatMap {α β : Type} {f : α → List β} {m : Nat} (hm : 0 < m)
    (hf : ∀ a, (f a).length = m) (as : List α) (n : Nat) :
    (as.flatMap f)[n]? = as[n / m]?.bind fun a ↦ (f a)[n % m]? := by
  induction as generalizing n with
  | nil => simp
  | cons a as ih =>
    rw [List.flatMap_cons]
    rcases Nat.lt_or_ge n m with hn | hn
    · rw [List.getElem?_append_left (by rwa [hf]), Nat.div_eq_of_lt hn, Nat.mod_eq_of_lt hn]
      rfl
    · rw [List.getElem?_append_right (by rwa [hf]), hf, ih, Nat.div_eq_sub_div hm hn,
        Nat.mod_eq_sub_mod hn]
      rfl

theorem getElem?_readings {id : Nat} {values : List Scalar} (h : 0 < values.length) (n : Nat) :
    (readings ((id, values) :: axes))[n]? =
      (readings axes)[n / values.length]?.map fun places ↦ n % values.length :: places := by
  have hlt : n % values.length < values.length := Nat.mod_lt n h
  rw [readings, getElem?_flatMap h (by simp)]
  rcases (readings axes)[n / values.length]? with - | places
  · rfl
  · simp [hlt]

theorem getElem?_readings_zero (h : ∀ a ∈ axes, 0 < a.2.length) :
    (readings axes)[0]? = some (start axes) := by
  induction axes with
  | nil => rfl
  | cons a axes ih =>
    obtain ⟨ha, haxes⟩ := List.forall_mem_cons.1 h
    rw [getElem?_readings ha, Nat.zero_div, Nat.zero_mod, ih haxes]
    rfl

/-- One step of the odometer leads from the reading of a number to the one of the next number, if
there is one. -/
theorem advance_of_getElem? (h : ∀ a ∈ axes, 0 < a.2.length) {n : Nat}
    (hn : (readings axes)[n]? = some places) : advance axes places = (readings axes)[n + 1]? := by
  induction axes generalizing n places with
  | nil =>
    obtain ⟨hlt, -⟩ := List.getElem?_eq_some_iff.1 hn
    have hzero : n = 0 := Nat.lt_one_iff.1 hlt
    subst hzero
    rfl
  | cons a axes ih =>
    obtain ⟨id, values⟩ := a
    obtain ⟨ha, haxes⟩ := List.forall_mem_cons.1 h
    dsimp only at ha
    rw [getElem?_readings ha] at hn ⊢
    obtain ⟨rest, hrest, rfl⟩ := Option.map_eq_some_iff.1 hn
    rw [advance]
    split
    · next hlt =>
      -- The first wheel turns alone.
      have hsum : n % values.length + 1 + values.length * (n / values.length) = n + 1 := by
        have := Nat.mod_add_div n values.length
        omega
      obtain ⟨hdiv, hmod⟩ := (Nat.div_mod_unique ha).2 ⟨hsum, hlt⟩
      rw [hdiv, hmod, hrest]
      rfl
    · next hlt =>
      -- The first wheel comes round, and the other ones make a step.
      have hsum : 0 + values.length * (n / values.length + 1) = n + 1 := by
        have hadd := Nat.mod_add_div n values.length
        have hmod := Nat.mod_lt n ha
        rw [Nat.mul_succ]
        omega
      obtain ⟨hdiv, hmod⟩ := (Nat.div_mod_unique ha).2 ⟨hsum, ha⟩
      rw [hdiv, hmod, ih haxes hrest]

/-! ### The points of the grid -/

/-- The points of the grid in the order of the odometer. The first literal changes fastest. -/
def points : List (Nat × List Scalar) → List (List (Nat × Scalar))
  | [] => [[]]
  | (id, values) :: axes => (points axes).flatMap fun p ↦ values.map fun v ↦ (id, v) :: p

theorem points_eq (axes : List (Nat × List Scalar)) :
    points axes = (readings axes).map (point axes) := by
  induction axes with
  | nil => rfl
  | cons a axes ih =>
    obtain ⟨id, values⟩ := a
    have hvalues : (List.range values.length).map (fun i ↦ (values[i]?).getD default) = values := by
      refine List.ext_getElem (by simp) fun i h _ ↦ ?_
      have hi : i < values.length := by simpa using h
      simp [hi]
    rw [points, readings, ih, List.flatMap_map, List.map_flatMap]
    refine congrArg (readings axes).flatMap (funext fun places ↦ ?_)
    conv_lhs => rw [← hvalues]
    rw [List.map_map, List.map_map]
    rfl

/-- A point has one candidate on each axis. -/
theorem mem_points_iff {p : List (Nat × Scalar)} :
    p ∈ points axes ↔ List.Forall₂ (fun e a ↦ e.1 = a.1 ∧ e.2 ∈ a.2) p axes := by
  induction axes generalizing p with
  | nil => simp [points]
  | cons a axes ih =>
    obtain ⟨id, values⟩ := a
    rw [points, List.mem_flatMap]
    constructor
    · rintro ⟨q, hq, hp⟩
      obtain ⟨v, hv, rfl⟩ := List.mem_map.1 hp
      exact .cons ⟨rfl, hv⟩ (ih.1 hq)
    · intro h
      cases h with
      | @cons e _ q _ he hq =>
        obtain ⟨rfl, hv⟩ := he
        exact ⟨q, ih.2 hq, List.mem_map_of_mem hv⟩

theorem map_fst_of_mem_points {p : List (Nat × Scalar)} (hp : p ∈ points axes) :
    p.map Prod.fst = axes.map Prod.fst := by
  have hall := mem_points_iff.1 hp
  clear hp
  induction hall with
  | nil => rfl
  | cons h _ ih => rw [List.map_cons, List.map_cons, h.1, ih]

theorem exists_mem_of_mem_points {p : List (Nat × Scalar)} (hp : p ∈ points axes)
    {a : Nat × List Scalar} (ha : a ∈ axes) : ∃ v ∈ a.2, (a.1, v) ∈ p := by
  have hall := mem_points_iff.1 hp
  clear hp
  induction hall with
  | nil => cases ha
  | @cons e b q axes he _ ih =>
    rcases List.mem_cons.1 ha with rfl | ha
    · exact ⟨e.2, he.2, by rw [← he.1]; exact List.mem_cons_self⟩
    · obtain ⟨v, hv, hmem⟩ := ih ha
      exact ⟨v, hv, List.mem_cons_of_mem _ hmem⟩

theorem length_points (axes : List (Nat × List Scalar)) :
    (points axes).length = (axes.map fun a ↦ a.2.length).prod := by
  induction axes with
  | nil => rfl
  | cons a axes ih =>
    obtain ⟨id, values⟩ := a
    simp [points, ih, List.length_flatMap, Nat.mul_comm]

/-- No point comes twice. -/
theorem nodup_points (h : ∀ a ∈ axes, a.2.Nodup) : (points axes).Nodup := by
  induction axes with
  | nil => exact List.nodup_singleton _
  | cons a axes ih =>
    obtain ⟨id, values⟩ := a
    obtain ⟨ha, haxes⟩ := List.forall_mem_cons.1 h
    rw [points, List.nodup_flatMap]
    constructor
    · intro p _
      refine ha.map fun v u hvu ↦ ?_
      exact congrArg Prod.snd (List.cons.inj hvu).1
    · refine (ih haxes).imp fun {p q} hpq e hp hq ↦ hpq ?_
      obtain ⟨v, -, rfl⟩ := List.mem_map.1 hp
      obtain ⟨u, -, hu⟩ := List.mem_map.1 hq
      exact (List.cons.inj hu).2.symm

/-! ### Points as assignments -/

section

variable {p q : List (Nat × Scalar)}

theorem get?_ofList_of_mem (hp : (p.map Prod.fst).Nodup) {id : Nat} {v : Scalar}
    (h : (id, v) ∈ p) : (Table.ofList p).get? id = some v :=
  Table.get?_foldl_insert_of_mem hp h

theorem get?_ofList_of_notMem {id : Nat} (h : id ∉ p.map Prod.fst) :
    (Table.ofList p).get? id = none :=
  Table.get?_foldl_insert_of_notMem h

/-- Points of the same literals are the same if they are the same assignments. -/
theorem eq_of_ofList_eq (hp : (p.map Prod.fst).Nodup) (hkeys : p.map Prod.fst = q.map Prod.fst)
    (h : (Table.ofList p : Assignment) = Table.ofList q) : p = q := by
  have hlookup {r : List (Nat × Scalar)} (hr : (r.map Prod.fst).Nodup) :
      r.map (fun e ↦ (e.1, some e.2)) =
        (r.map Prod.fst).map fun id ↦ (id, (Table.ofList r).get? id) := by
    rw [List.map_map]
    exact List.map_congr_left fun e he ↦ Prod.ext rfl (get?_ofList_of_mem hr he).symm
  have hinj : Function.Injective fun e : Nat × Scalar ↦ (e.1, some e.2) := by
    intro e f hef
    obtain ⟨hid, hv⟩ := Prod.mk.inj hef
    exact Prod.ext hid (Option.some.inj hv)
  refine List.map_injective_iff.2 hinj ?_
  rw [hlookup hp, hlookup (hkeys ▸ hp), hkeys, h]

end

/-! ### The grid of a path condition -/

/-- The points of the grid of a path condition in the order of the odometer, as assignments. -/
def grid (pc : PathCondition) : List Assignment :=
  (points (Grid.axes pc.literals)).map Table.ofList

/-- The number of points of the grid of a path condition. -/
def size (pc : PathCondition) : Nat :=
  (pc.literals.map fun l ↦ (candidates l.2).length).prod

/-- The assignment gives each literal of the path condition one of the candidates of its kind. -/
def Meets (pc : PathCondition) (σ : Assignment) : Prop :=
  ∀ l ∈ pc.literals, ∃ v ∈ candidates l.2, σ.get? l.1 = some ⟨l.2, v⟩

theorem candidates_ne_nil (k : Kind) : candidates k ≠ [] := by
  obtain - | (w | w) := k <;> simp [candidates, integers, halves]

theorem nodup_candidates (k : Kind) : (candidates k).Nodup := by
  obtain - | ((- | -) | (- | -)) := k <;> decide +kernel

theorem length_pos_of_mem_axes {a : Nat × List Scalar} (ha : a ∈ Grid.axes pc.literals) :
    0 < a.2.length := by
  obtain ⟨l, -, rfl⟩ := List.mem_map.1 ha
  exact List.length_pos_iff.2 fun h ↦ candidates_ne_nil l.2 (List.map_eq_nil_iff.1 h)

theorem nodup_of_mem_axes {a : Nat × List Scalar} (ha : a ∈ Grid.axes pc.literals) :
    a.2.Nodup := by
  obtain ⟨l, -, rfl⟩ := List.mem_map.1 ha
  refine (nodup_candidates l.2).map fun v u hvu ↦ ?_
  exact eq_of_heq (Scalar.mk.inj hvu).2

theorem map_fst_axes (pc : PathCondition) :
    (Grid.axes pc.literals).map Prod.fst = pc.literals.map Prod.fst := by
  rw [Grid.axes, List.map_map]
  rfl

theorem length_grid (pc : PathCondition) : (grid pc).length = size pc := by
  rw [grid, List.length_map, length_points, Grid.axes, List.map_map, size]
  refine congrArg List.prod (List.map_congr_left fun l _ ↦ ?_)
  exact List.length_map _

/-- The keys of a point are the literals, so it has no key twice. -/
theorem nodup_map_fst_of_mem_points {p : List (Nat × Scalar)}
    (hp : p ∈ points (Grid.axes pc.literals)) : (p.map Prod.fst).Nodup := by
  rw [map_fst_of_mem_points hp, map_fst_axes]
  exact pc.nodup_literals

/-- The points of the grid are different assignments. -/
theorem nodup_grid (pc : PathCondition) : (grid pc).Nodup := by
  refine (nodup_points fun a ↦ nodup_of_mem_axes).map_on fun p hp q hq h ↦ ?_
  refine eq_of_ofList_eq (nodup_map_fst_of_mem_points hp) ?_ h
  rw [map_fst_of_mem_points hp, map_fst_of_mem_points hq]

theorem contains_of_mem_grid {σ : Assignment} (h : σ ∈ grid pc) (id : Nat) :
    σ.contains id ↔ id ∈ pc.literals.map Prod.fst := by
  obtain ⟨p, hp, rfl⟩ := List.mem_map.1 h
  rw [← map_fst_axes, ← map_fst_of_mem_points hp, Table.contains]
  constructor
  · intro hsome
    by_contra hid
    rw [get?_ofList_of_notMem hid] at hsome
    cases hsome
  · intro hid
    obtain ⟨e, he, rfl⟩ := List.mem_map.1 hid
    rw [get?_ofList_of_mem (nodup_map_fst_of_mem_points hp) he]
    rfl

theorem meets_of_mem_grid {σ : Assignment} (h : σ ∈ grid pc) : Meets pc σ := by
  obtain ⟨p, hp, rfl⟩ := List.mem_map.1 h
  intro l hl
  obtain ⟨v, hv, hmem⟩ := exists_mem_of_mem_points hp (List.mem_map_of_mem hl)
  obtain ⟨x, hx, rfl⟩ := List.mem_map.1 hv
  exact ⟨x, hx, get?_ofList_of_mem (nodup_map_fst_of_mem_points hp) hmem⟩

/-- An assignment that meets the grid gives the literals what one of its points gives them. -/
theorem Meets.exists_mem_grid {σ : Assignment} (h : Meets pc σ) :
    ∃ τ ∈ grid pc, ∀ l ∈ pc.literals, σ.get? l.1 = τ.get? l.1 := by
  let p := pc.literals.map fun l ↦ (l.1, (σ.get? l.1).getD default)
  have hp : p ∈ points (Grid.axes pc.literals) := by
    rw [mem_points_iff, Grid.axes, List.forall₂_map_left_iff, List.forall₂_map_right_iff,
      List.forall₂_same]
    intro l hl
    obtain ⟨v, hv, hget⟩ := h l hl
    exact ⟨rfl, by rw [hget]; exact List.mem_map_of_mem hv⟩
  refine ⟨_, List.mem_map_of_mem hp, fun l hl ↦ ?_⟩
  obtain ⟨v, -, hget⟩ := h l hl
  have hmem : (l.1, (⟨l.2, v⟩ : Scalar)) ∈ p := List.mem_map.2 ⟨l, hl, by rw [hget]; rfl⟩
  rw [hget, get?_ofList_of_mem (nodup_map_fst_of_mem_points hp) hmem]

/-! ### The search -/

/-- The points that the search tries, from a reading on and among so many. -/
def triedFrom (pc : PathCondition) (axes : List (Nat × List Scalar)) :
    Nat → List Nat → List Assignment
  | 0, _ => []
  | left + 1, places =>
    let σ : Assignment := Table.ofList (point axes places)
    σ ::
      if satisfied pc σ then []
      else
        match advance axes places with
        | some places => triedFrom pc axes left places
        | none => []

/-- The points that the search tries. -/
def tried (pc : PathCondition) : List Assignment :=
  triedFrom pc (Grid.axes pc.literals) budget (start (Grid.axes pc.literals))

theorem searchFrom_eq (axes : List (Nat × List Scalar)) (left : Nat) (places : List Nat) :
    searchFrom pc axes left places = (triedFrom pc axes left places).find? (satisfied pc) := by
  induction left generalizing places with
  | zero => rfl
  | succ left ih =>
    rw [searchFrom, triedFrom, List.find?_cons]
    rcases satisfied pc (Table.ofList (point axes places)) with - | -
    · rcases advance axes places with - | places
      · rfl
      · exact ih places
    · rfl

/-- The elements of a list up to the first one that passes a test. -/
def upToFirst {α : Type} (test : α → Bool) (as : List α) : List α :=
  as.take (as.findIdx test + 1)

theorem upToFirst_cons {α : Type} (test : α → Bool) (a : α) (as : List α) :
    upToFirst test (a :: as) = a :: if test a then [] else upToFirst test as := by
  rw [upToFirst, List.findIdx_cons, List.take_succ_cons]
  cases test a <;> rfl

/-- From the reading of a number on, the points are tried in their order, up to the first one that
satisfies the path condition. -/
theorem triedFrom_eq {axes : List (Nat × List Scalar)} (h : ∀ a ∈ axes, 0 < a.2.length) {n : Nat}
    {places : List Nat} (hn : (readings axes)[n]? = some places) (left : Nat) :
    triedFrom pc axes left places =
      upToFirst (satisfied pc) ((((points axes).map Table.ofList).drop n).take left) := by
  induction left generalizing n places with
  | zero => rfl
  | succ left ih =>
    have hpoints : (points axes).map Table.ofList =
        (readings axes).map fun places ↦ (Table.ofList (point axes places) : Assignment) := by
      rw [points_eq, List.map_map]
      rfl
    obtain ⟨hlt, hplaces⟩ := List.getElem?_eq_some_iff.1 hn
    have hdrop : ((points axes).map Table.ofList).drop n =
        (Table.ofList (point axes places) : Assignment) ::
          ((points axes).map Table.ofList).drop (n + 1) := by
      rw [hpoints, List.drop_eq_getElem_cons (by rwa [List.length_map]), List.getElem_map, hplaces]
    rw [triedFrom, hdrop, List.take_succ_cons, upToFirst_cons, advance_of_getElem? h hn]
    rcases hnext : (readings axes)[n + 1]? with - | next
    · -- The last point has been tried.
      have hend : ((points axes).map Table.ofList).drop (n + 1) = [] := by
        rw [hpoints, List.drop_eq_nil_iff, List.length_map]
        exact List.getElem?_eq_none_iff.1 hnext
      rw [hend, List.take_nil]
      rfl
    · dsimp only
      rw [ih hnext]

theorem tried_eq (pc : PathCondition) :
    tried pc = upToFirst (satisfied pc) ((grid pc).take budget) :=
  triedFrom_eq (fun _ ↦ length_pos_of_mem_axes)
    (getElem?_readings_zero fun _ ↦ length_pos_of_mem_axes) budget

theorem find?_upToFirst {α : Type} (test : α → Bool) (as : List α) :
    (upToFirst test as).find? test = as.find? test := by
  induction as with
  | nil => rfl
  | cons a as ih =>
    rw [upToFirst_cons, List.find?_cons, List.find?_cons]
    rcases test a with - | -
    · exact ih
    · rfl

theorem find?_tried (pc : PathCondition) :
    (tried pc).find? (satisfied pc) = ((grid pc).take budget).find? (satisfied pc) := by
  rw [tried_eq, find?_upToFirst]

theorem nodup_tried (pc : PathCondition) : (tried pc).Nodup := by
  rw [tried_eq]
  exact (nodup_grid pc).sublist ((List.take_sublist _ _).trans (List.take_sublist _ _))

theorem length_tried_le (pc : PathCondition) : (tried pc).length ≤ budget := by
  rw [tried_eq]
  exact (List.length_take_le' _ _).trans (List.length_take_le _ _)

theorem satisfied_iff {σ : Assignment} : satisfied pc σ ↔ pc.evaluate σ = .ok true := by
  rw [satisfied]
  rcases pc.evaluate σ with e | b
  · simp
  · simp

theorem search_of_literals_eq_nil (h : pc.literals = []) :
    search pc =
      match pc.evaluate Table.empty with
      | .ok true => .solved ⟨.sat, Table.empty⟩
      | .ok false => .solved ⟨.unsat, Table.empty⟩
      | .error e => .failed e.message := by
  rw [search, h]
  rfl

/-- If there are literals, the search answers with the point among those it tries that satisfies
the path condition. -/
theorem search_of_literals_ne_nil (h : pc.literals ≠ []) :
    search pc =
      match (tried pc).find? (satisfied pc) with
      | some σ => .solved ⟨.sat, σ⟩
      | none => .solved ⟨.unknown, Table.empty⟩ := by
  rw [search, if_neg (by rwa [List.isEmpty_iff])]
  dsimp only
  rw [searchFrom_eq]
  rfl

/-- A path condition without literals has one value. -/
theorem evaluate_of_literals_eq_nil (h : pc.literals = []) (σ : Assignment) :
    pc.evaluate σ = pc.evaluate Table.empty :=
  PathCondition.evaluate_congr fun l hl ↦ by rw [h] at hl; cases hl

theorem search_sat {σ : Assignment} (h : search pc = .solved ⟨.sat, σ⟩) :
    pc.evaluate σ = .ok true ∧ (∀ id, σ.contains id ↔ id ∈ pc.literals.map Prod.fst) ∧
      Meets pc σ := by
  by_cases hpc : pc.literals = []
  · rw [search_of_literals_eq_nil hpc] at h
    split at h
    · next heval =>
      cases h
      rw [Meets, hpc]
      exact ⟨heval, fun id ↦ by simp [Table.contains], by simp⟩
    · cases h
    · cases h
  · rw [search_of_literals_ne_nil hpc, find?_tried] at h
    split at h
    · next τ hfind =>
      cases h
      have hmem := List.mem_of_mem_take (List.mem_of_find?_eq_some hfind)
      exact ⟨satisfied_iff.1 (List.find?_some hfind), contains_of_mem_grid hmem,
        meets_of_mem_grid hmem⟩
    · cases h

theorem search_unsat {σ : Assignment} (h : search pc = .solved ⟨.unsat, σ⟩) :
    pc.literals = [] ∧ ∀ τ, pc.evaluate τ = .ok false := by
  by_cases hpc : pc.literals = []
  · rw [search_of_literals_eq_nil hpc] at h
    split at h
    · cases h
    · next heval => exact ⟨hpc, fun τ ↦ (evaluate_of_literals_eq_nil hpc τ).trans heval⟩
    · cases h
  · rw [search_of_literals_ne_nil hpc] at h
    split at h
    · cases h
    · cases h

theorem search_unknown_iff (h : pc.literals ≠ []) :
    search pc = .solved ⟨.unknown, Table.empty⟩ ↔
      ∀ σ ∈ (grid pc).take budget, pc.evaluate σ ≠ .ok true := by
  rw [search_of_literals_ne_nil h, find?_tried]
  rcases hfind : ((grid pc).take budget).find? (satisfied pc) with - | σ
  · simpa [satisfied_iff] using hfind
  · have hsat := satisfied_iff.1 (List.find?_some hfind)
    simpa using ⟨σ, List.mem_of_find?_eq_some hfind, hsat⟩

/-- On a grid within the budget the search is complete. -/
theorem search_unknown_iff_of_size_le (h : pc.literals ≠ []) (hsize : size pc ≤ budget) :
    search pc = .solved ⟨.unknown, Table.empty⟩ ↔
      ∀ σ, Meets pc σ → pc.evaluate σ ≠ .ok true := by
  rw [search_unknown_iff h, List.take_of_length_le (by rwa [length_grid])]
  constructor
  · intro hgrid σ hσ
    obtain ⟨τ, hτ, hsame⟩ := hσ.exists_mem_grid
    rw [PathCondition.evaluate_congr hsame]
    exact hgrid τ hτ
  · intro hmeets σ hσ
    exact hmeets σ (meets_of_mem_grid hσ)

/-- The grid search is sound, it tries the points of the grid in the order of the odometer, each
at most once, up to the first that satisfies the path condition or to the budget, and it comes to
no verdict only if none of them satisfies the path condition. -/
theorem search_runs_through_grid (pc : PathCondition) :
    (∀ σ, search pc = .solved ⟨.sat, σ⟩ →
      pc.evaluate σ = .ok true ∧ (∀ id, σ.contains id ↔ id ∈ pc.literals.map Prod.fst) ∧
        Meets pc σ) ∧
    (∀ σ, search pc = .solved ⟨.unsat, σ⟩ →
      pc.literals = [] ∧ ∀ τ, pc.evaluate τ = .ok false) ∧
    (pc.literals ≠ [] →
      search pc =
          (match (tried pc).find? (satisfied pc) with
          | some σ => .solved ⟨.sat, σ⟩
          | none => .solved ⟨.unknown, Table.empty⟩) ∧
        tried pc = upToFirst (satisfied pc) ((grid pc).take 200000) ∧
        (tried pc).find? (satisfied pc) = ((grid pc).take 200000).find? (satisfied pc) ∧
        (tried pc).Nodup ∧
        (tried pc).length ≤ 200000 ∧
        (search pc = .solved ⟨.unknown, Table.empty⟩ ↔
          ∀ σ ∈ (grid pc).take 200000, pc.evaluate σ ≠ .ok true) ∧
        (size pc ≤ 200000 →
          (search pc = .solved ⟨.unknown, Table.empty⟩ ↔
            ∀ σ, Meets pc σ → pc.evaluate σ ≠ .ok true))) :=
  ⟨fun _ ↦ search_sat, fun _ ↦ search_unsat, fun h ↦
    ⟨search_of_literals_ne_nil h, tried_eq pc, find?_tried pc, nodup_tried pc, length_tried_le pc,
      search_unknown_iff h, search_unknown_iff_of_size_le h⟩⟩

end ConstraintSearch.Grid

import ConstraintSearch.Term.PathCondition
import Mathlib.Data.List.Basic

/-!
# First occurrences

The literals of a path condition are the first ones of their occurrences. They do not change if
something is repeated that has occurred before, and that is all that tells the occurrences in a
term from those of the variables in the expression from which it comes: `SameFirsts` is
equality up to such repetitions. It is a congruence for concatenation, so that it is carried
through a term operand by operand.
-/

namespace ConstraintSearch

variable {α β : Type} [BEq α] [LawfulBEq α] [BEq β] [LawfulBEq β]

/-! ### Lists without repetitions -/

/-- The element `a` is left out only where it occurs. -/
theorem filter_ne_eq_self {a : α} {as : List α} (h : a ∉ as) :
    as.filter (fun b ↦ !b == a) = as := by
  refine List.filter_eq_self.2 fun b hb ↦ ?_
  rw [Bool.not_eq_true', beq_eq_false_iff_ne]
  rintro rfl
  exact h hb

theorem eraseDups_eq_self {as : List α} (h : as.Nodup) : as.eraseDups = as := by
  induction as with
  | nil => rfl
  | cons a as ih =>
    obtain ⟨ha, has⟩ := List.nodup_cons.1 h
    rw [List.eraseDups_cons, filter_ne_eq_self ha, ih has]

theorem nodup_eraseDups (as : List α) : as.eraseDups.Nodup := by
  match as with
  | [] => exact List.nodup_nil
  | a :: as =>
    rw [List.eraseDups_cons, List.nodup_cons, List.mem_eraseDups]
    exact ⟨by simp, nodup_eraseDups (as.filter fun b ↦ !b == a)⟩
termination_by as.length
decreasing_by exact Nat.lt_succ_of_le (List.length_filter_le _ _)

/-- Repetitions can be left out before or after other elements are. -/
theorem eraseDups_filter (p : α → Bool) (as : List α) :
    (as.filter p).eraseDups = as.eraseDups.filter p := by
  match as with
  | [] => rfl
  | a :: as =>
    have ih := eraseDups_filter p (as.filter fun b ↦ !b == a)
    rw [List.filter_comm] at ih
    by_cases ha : p a = true
    · rw [List.filter_cons_of_pos ha, List.eraseDups_cons, List.eraseDups_cons,
        List.filter_cons_of_pos ha, ih]
    · -- What the filter lets through is not `a`.
      have hne : a ∉ as.filter p := fun h ↦ ha (List.of_mem_filter h)
      rw [List.filter_cons_of_neg ha, List.eraseDups_cons, List.filter_cons_of_neg ha, ← ih,
        filter_ne_eq_self hne]
termination_by as.length
decreasing_by exact Nat.lt_succ_of_le (List.length_filter_le _ _)

/-- A map under which different elements stay different keeps repetitions. -/
theorem eraseDups_map {f : α → β} {as : List α} (hf : ∀ a ∈ as, ∀ b ∈ as, f a = f b → a = b) :
    (as.map f).eraseDups = as.eraseDups.map f := by
  match as with
  | [] => rfl
  | a :: as =>
    have hmem : ∀ b ∈ as.filter fun b ↦ !b == a, b ∈ a :: as := fun b hb ↦
      List.mem_cons_of_mem _ (List.mem_of_mem_filter hb)
    have ih : ((as.filter fun b ↦ !b == a).map f).eraseDups = _ :=
      eraseDups_map fun b hb c hc ↦ hf b (hmem b hb) c (hmem c hc)
    have hfilter : (as.map f).filter (fun b ↦ !b == f a) =
        (as.filter fun b ↦ !b == a).map f := by
      rw [List.filter_map]
      refine congrArg _ (List.filter_congr fun b hb ↦ ?_)
      have hiff : f b = f a ↔ b = a :=
        ⟨hf b (List.mem_cons_of_mem _ hb) a List.mem_cons_self, congrArg f⟩
      rw [Bool.eq_iff_iff]
      simp [hiff]
    rw [List.map_cons, List.eraseDups_cons, List.eraseDups_cons, List.map_cons, hfilter, ih]
termination_by as.length
decreasing_by exact Nat.lt_succ_of_le (List.length_filter_le _ _)

/-! ### Lists with the same first occurrences -/

/-- The lists are equal but for repetitions of what has occurred before. -/
def SameFirsts {α : Type} [BEq α] (as bs : List α) : Prop :=
  as.eraseDups = bs.eraseDups

namespace SameFirsts

variable {as bs as' bs' : List α}

theorem mem_iff (h : SameFirsts as bs) {a : α} : a ∈ as ↔ a ∈ bs := by
  rw [← List.mem_eraseDups, h, List.mem_eraseDups]

theorem append (h : SameFirsts as bs) (h' : SameFirsts as' bs') :
    SameFirsts (as ++ as') (bs ++ bs') := by
  rw [SameFirsts, List.eraseDups_append, List.eraseDups_append, h]
  have hremove : as'.removeAll as = as'.removeAll bs := by
    refine List.filter_congr fun a _ ↦ ?_
    rw [List.elem_eq_mem, List.elem_eq_mem, decide_eq_decide.2 h.mem_iff]
  rw [hremove, List.removeAll, List.removeAll, eraseDups_filter, eraseDups_filter, h']

/-- What has occurred before can be left out at the end. -/
theorem append_of_subset (h : bs ⊆ as) : SameFirsts (as ++ bs) as := by
  have hremove : bs.removeAll as = [] := List.filter_eq_nil_iff.2 fun a ha ↦ by simp [h ha]
  rw [SameFirsts, List.eraseDups_append, hremove, List.eraseDups_nil, List.append_nil]

end SameFirsts

/-! ### Literals -/

namespace PathCondition

/-- The numbers of the first occurrences are those that occur, without repetitions. -/
theorem map_fst_firstOccurrences (seen : List Nat) (os : List (Nat × Kind)) :
    (firstOccurrences seen os).map Prod.fst =
      ((os.map Prod.fst).filter fun id ↦ id ∉ seen).eraseDups := by
  induction os generalizing seen with
  | nil => rfl
  | cons o os ih =>
    rw [firstOccurrences, List.map_cons]
    split
    · next hseen => rw [List.filter_cons_of_neg (by simpa using hseen), ih]
    · next hseen =>
      rw [List.filter_cons_of_pos (by simpa using hseen), List.eraseDups_cons, List.filter_filter,
        List.map_cons, ih]
      refine congrArg _ (congrArg _ (List.filter_congr fun id _ ↦ ?_))
      rw [Bool.eq_iff_iff]
      simp

/-- A literal of the first occurrences is the first occurrence of its number. -/
theorem find?_of_mem_firstOccurrences {seen : List Nat} {os : List (Nat × Kind)} {l : Nat × Kind}
    (h : l ∈ firstOccurrences seen os) :
    l.1 ∉ seen ∧ os.find? (fun o ↦ o.1 == l.1) = some l := by
  induction os generalizing seen with
  | nil => cases h
  | cons o os ih =>
    rw [firstOccurrences] at h
    split at h
    · next hseen =>
      obtain ⟨hl, hfind⟩ := ih h
      have hne : o.1 ≠ l.1 := fun heq ↦ hl (heq ▸ hseen)
      exact ⟨hl, by rw [List.find?_cons_of_neg (by simpa using hne), hfind]⟩
    · next hseen =>
      rcases List.mem_cons.1 h with rfl | h
      · exact ⟨hseen, List.find?_cons_of_pos (beq_self_eq_true _)⟩
      · obtain ⟨hl, hfind⟩ := ih h
        rw [List.mem_cons, not_or] at hl
        exact ⟨hl.2, by rw [List.find?_cons_of_neg (by simpa using Ne.symm hl.1), hfind]⟩

/-- Where a literal has one kind only, its first occurrence is one like all the others. -/
theorem firstOccurrences_eq {os : List (Nat × Kind)} {seen : List Nat}
    (h : ∀ o ∈ os, ∀ p ∈ os, o.1 = p.1 → o = p) :
    firstOccurrences seen os = (os.filter fun o ↦ o.1 ∉ seen).eraseDups := by
  induction os generalizing seen with
  | nil => rfl
  | cons o os ih =>
    have hos : ∀ o ∈ os, ∀ p ∈ os, o.1 = p.1 → o = p := fun o ho p hp ↦
      h o (List.mem_cons_of_mem _ ho) p (List.mem_cons_of_mem _ hp)
    rw [firstOccurrences]
    split
    · next hseen => rw [List.filter_cons_of_neg (by simpa using hseen), ih hos]
    · next hseen =>
      rw [List.filter_cons_of_pos (by simpa using hseen), List.eraseDups_cons, List.filter_filter,
        ih hos]
      refine congrArg _ (congrArg _ (List.filter_congr fun p hp ↦ ?_))
      have hiff : p.1 = o.1 ↔ p = o :=
        ⟨h p (List.mem_cons_of_mem _ hp) o List.mem_cons_self, congrArg Prod.fst⟩
      rw [Bool.eq_iff_iff]
      simp [hiff]

end PathCondition

end ConstraintSearch

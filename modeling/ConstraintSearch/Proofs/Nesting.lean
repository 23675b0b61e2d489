import Mathlib.Control.Basic

/-!
# Nested combinations

The elements of a list can be combined with an operator of two operands, nested to the left. If the
operator is *interpreted* in a monad, by the interpretation of its left operand, then that of its
right one, and then a function of the two results, then the whole combination is interpreted by the
elements in their order, and then by a combination of the results. It does not matter whether the
list has been combined at once, or group by group first: in both cases the elements are what is run.
-/

namespace ConstraintSearch

/-- The elements of a list, combined with an operator and nested to the left; `unit` stands for the
combination of none. -/
def nest {α : Type} (op : α → α → α) (unit : α) : List α → α
  | [] => unit
  | a :: as => as.foldl op a

/-- The conjunction of booleans. -/
theorem nest_and (bs : List Bool) : nest and true bs = bs.all id := by
  have hfold : ∀ (bs : List Bool) (b : Bool), bs.foldl and b = (b && bs.all id) := by
    intro bs
    induction bs with
    | nil => simp
    | cons c bs ih => intro b; simp [ih, Bool.and_assoc]
  cases bs with
  | nil => rfl
  | cons b bs => exact hfold bs b

/-- The conjunction of booleans that have been combined group by group. -/
theorem nest_and_nest (bss : List (List Bool)) :
    nest and true (bss.map (nest and true)) = bss.flatten.all id := by
  rw [nest_and, List.all_map, List.all_flatten]
  exact congrArg _ (funext nest_and)

variable {m : Type → Type} [Monad m] [LawfulMonad m] {α β : Type}

/-- To go through the groups one after the other is to go through all of their elements. -/
theorem mapM_flatten (f : α → m β) (ass : List (List α)) :
    ass.flatten.mapM f = List.flatten <$> ass.mapM fun as ↦ as.mapM f := by
  induction ass with
  | nil => simp
  | cons as ass ih => simp [List.mapM_append, ih]

theorem mapM_map_right {γ : Type} (f : α → m β) (g : β → γ) (as : List α) :
    (as.mapM fun a ↦ g <$> f a) = List.map g <$> as.mapM f := by
  induction as with
  | nil => simp
  | cons a as ih => simp [ih]

/-- The operator and its unit are interpreted by a function of results and its unit. -/
structure Interprets (I : α → m β) (op : α → α → α) (unit : α) (f : β → β → β) (v : β) :
    Prop where
  unit : I unit = pure v
  op : ∀ a b, I (op a b) = do
    let x ← I a
    let y ← I b
    return f x y

namespace Interprets

variable {I : α → m β} {op : α → α → α} {unit : α} {f : β → β → β} {v : β}

theorem apply_foldl (h : Interprets I op unit f v) (a : α) (as : List α) :
    I (as.foldl op a) = do
      let x ← I a
      let ys ← as.mapM I
      return ys.foldl f x := by
  induction as generalizing a with
  | nil => simp
  | cons b as ih => simp [ih, h.op]

/-- The elements are interpreted in their order, and then the results are combined. -/
theorem apply_nest (h : Interprets I op unit f v) (as : List α) :
    I (nest op unit as) = nest f v <$> as.mapM I := by
  cases as with
  | nil => simp [nest, h.unit]
  | cons a as => simp [nest, h.apply_foldl]

/-- Of groups, too, the elements are interpreted in their order. -/
theorem apply_nest_nest (h : Interprets I op unit f v) (ass : List (List α)) :
    I (nest op unit (ass.map (nest op unit))) =
      (fun bss ↦ nest f v (bss.map (nest f v))) <$> ass.mapM fun as ↦ as.mapM I := by
  have hgroups : (ass.map (nest op unit)).mapM I =
      List.map (nest f v) <$> ass.mapM fun as ↦ as.mapM I := by
    rw [List.mapM_map, ← mapM_map_right]
    exact congrArg (fun g ↦ ass.mapM g) (funext h.apply_nest)
  rw [h.apply_nest, hgroups, ← comp_map]
  rfl

/-- Whether all elements of all groups are true is found out from one element after the other. -/
theorem apply_groups {I : α → m Bool} (h : Interprets I op unit and true) (ass : List (List α)) :
    I (nest op unit (ass.map (nest op unit))) =
      (fun bs : List Bool ↦ bs.all id) <$> ass.flatten.mapM I := by
  rw [h.apply_nest_nest, mapM_flatten, ← comp_map]
  exact congrArg (· <$> _) (funext nest_and_nest)

end Interprets

end ConstraintSearch

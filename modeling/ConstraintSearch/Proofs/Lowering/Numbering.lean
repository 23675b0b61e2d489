import ConstraintSearch.Proofs.Lowering.Bindings

/-!
# Numbers of literals

Literals are numbered by a supply that several passes may share. As long as the supply is not
started again, a number that has been taken is not taken once more, so no two variables of a pass
have literals with the same number. A literal then tells for which variable it stands.
-/

namespace ConstraintSearch

namespace LoweringState

/-- The states that a pass can reach while its supply of literals is not started again. It starts
without bindings, wherever the supply is, and is asked for one term or path condition after the
other, with success or without. Between these, other passes may take numbers from the supply. -/
inductive Unreset : LoweringState → Prop
  | initial (n : Nat) : Unreset ⟨[], n⟩
  | lower {s : LoweringState} (e : Expr) : s.Unreset → Unreset (e.lower.run s).2
  | lowerCondition {s : LoweringState} (e : Expr) : s.Unreset →
      Unreset (e.lowerCondition.run s).2
  | advance {s : LoweringState} {n : Nat} : s.Unreset → s.next ≤ n →
      Unreset { s with next := n }

/-- All numbers that have been given are different, and smaller than the next one. -/
structure Numbered (s : LoweringState) : Prop where
  lt_next : ∀ b ∈ s.bindings, b.literal.id < s.next
  nodup : (s.bindings.map fun b ↦ b.literal.id).Nodup

variable {s s' : LoweringState} {x y : Variable} {k : Kind} {l m : Literal}

theorem Numbered.advance (h : s.Numbered) {n : Nat} (hn : s.next ≤ n) :
    Numbered { s with next := n } :=
  ⟨fun b hb ↦ (h.lt_next b hb).trans_le hn, h.nodup⟩

/-- The next number is a new one. -/
theorem Numbered.extend (h : s.Numbered) : (s.extend x k).Numbered := by
  constructor
  · intro b hb
    rcases List.mem_append.1 hb with hb | hb
    · exact Nat.lt_succ_of_lt (h.lt_next b hb)
    · obtain rfl := List.mem_singleton.1 hb
      exact Nat.lt_succ_self _
  · rw [LoweringState.extend, List.map_append, List.nodup_append]
    refine ⟨h.nodup, List.nodup_singleton _, fun i hi j hj ↦ ?_⟩
    obtain ⟨b, hb, rfl⟩ := List.mem_map.1 hi
    obtain rfl := List.mem_singleton.1 hj
    exact (h.lt_next b hb).ne

theorem Numbered.grows (h : s.Numbered) (hs : s.Grows s') : s'.Numbered := by
  induction hs with
  | refl => exact h
  | step _ _ _ ih => exact ih.extend

/-- Literals with the same number are those of one variable. -/
theorem Numbered.var_eq (h : s.Numbered) (hx : s.literal? x = some l)
    (hy : s.literal? y = some m) (hid : l.id = m.id) : x = y :=
  congrArg Binding.var <| List.inj_on_of_nodup_map h.nodup (mem_bindings_of_literal? hx)
    (mem_bindings_of_literal? hy) hid

namespace Unreset

theorem reachable (h : s.Unreset) : s.Reachable := by
  induction h with
  | initial n => exact .initial n
  | lower e _ ih => exact ih.lower e
  | lowerCondition e _ ih => exact ih.lowerCondition e
  | advance _ _ ih => exact ih.renumber _

theorem wellKinded (h : s.Unreset) : s.WellKinded :=
  h.reachable.wellKinded

theorem unique (h : s.Unreset) : s.Unique :=
  h.reachable.unique

end Unreset

end LoweringState

end ConstraintSearch

import ConstraintSearch.Formula.Valuation
import ConstraintSearch.Proofs.Decimal.Text
import ConstraintSearch.Proofs.Scalar.Text

/-!
# Text of values

A value is read back from its text at its own type, whatever blanks stand around it. Booleans,
integers and floats come back as they were. A decimal comes back at the scale that its text shows,
which is not always its own, but as the same number.
-/

namespace ConstraintSearch

namespace Value

/-- Whether the value is one that can be stored: the scale of a decimal has 64 bits. -/
def InRange : Value → Prop
  | ⟨.num .decimal, d⟩ => Decimal.ScaleInRange (Decimal.scale d)
  | _ => True

instance : (v : Value) → Decidable v.InRange
  | ⟨.bool, _⟩ => .isTrue trivial
  | ⟨.num (.machine _), _⟩ => .isTrue trivial
  | ⟨.num .decimal, d⟩ => inferInstanceAs (Decidable (Decimal.ScaleInRange (Decimal.scale d)))

/-- Decimals are equal if they are the same number. -/
theorem equal_decimal_iff {a b : Decimal} :
    equal ⟨.decimal, a⟩ ⟨.decimal, b⟩ ↔ a.value = b.value := by
  show (some (a.order b) == some .eq) = true ↔ _
  rw [beq_iff_eq, Option.some.injEq, a.order_eq_compare, compare_eq_iff_eq]

/-- A datum is read back from the text of its value; a decimal, as the same number. -/
theorem exists_readDatum?_write {v : Value} (hv : v.InRange) :
    ∃ x : v.ty.Carrier, readDatum? v.ty v.write = some x ∧
      (v.ty ≠ .decimal → (⟨v.ty, x⟩ : Value) = v) ∧ (v.ty = .decimal → equal ⟨v.ty, x⟩ v) := by
  match v with
  | ⟨.bool, b⟩ => exact ⟨b, Scalar.read_write ⟨.bool, b⟩, fun _ ↦ rfl, fun h ↦ nomatch h⟩
  | ⟨.num (.machine k), x⟩ =>
    exact ⟨x, Scalar.read_write ⟨.num k, x⟩, fun _ ↦ rfl, fun h ↦ nomatch h⟩
  | ⟨.num .decimal, d⟩ =>
    obtain ⟨u, hu, hvalue⟩ := Decimal.exists_read_write hv
    exact ⟨u, hu, fun h ↦ absurd rfl h, fun _ ↦ equal_decimal_iff.2 hvalue⟩

theorem isBlank_of_mem_write {v : Value} (hv : v.InRange) :
    ∀ c ∈ v.write, Text.isBlank c = false := by
  match v with
  | ⟨.bool, b⟩ => exact Scalar.isBlank_of_mem_write ⟨.bool, b⟩
  | ⟨.num (.machine k), x⟩ => exact Scalar.isBlank_of_mem_write ⟨.num k, x⟩
  | ⟨.num .decimal, d⟩ =>
    intro c hc
    have hsigns : ∀ c ∈ ['.', '-', '+', 'e', 'E'], Text.isBlank c = false := by
      simp [Text.isBlank, Text.blankRanges]
    rcases Decimal.mem_write hv hc with hc | hc
    · exact Text.isBlank_of_isDigit hc
    · exact hsigns c hc

end Value

namespace Valuation

variable {v : Value} {before after : String}

/-- A value is read back from its text, and a variable of its type is given what is read. -/
theorem insertText_text (hv : v.InRange) (hbefore : ∀ c ∈ before.toList, Text.isBlank c)
    (hafter : ∀ c ∈ after.toList, Text.isBlank c) :
    ∃ u : Value, Value.read v.ty (before ++ v.text ++ after) = .ok u ∧ u.ty = v.ty ∧
      (v.ty ≠ .decimal → u = v) ∧ (v.ty = .decimal → u.equal v) ∧
      ∀ (σ : Valuation) (x : Variable), x.ty = v.ty →
        ∃ τ, σ.insertText x (before ++ v.text ++ after) = .ok τ ∧ τ.get? x = some u ∧
          ∀ y ≠ x, τ.get? y = σ.get? y := by
  obtain ⟨x, hx, hsame, hequal⟩ := Value.exists_readDatum?_write hv
  have hread : Value.read v.ty (before ++ v.text ++ after) = .ok ⟨v.ty, x⟩ := by
    rw [Value.read, String.toList_append, String.toList_append, Value.text, String.toList_ofList,
      Text.trim_append hbefore (Value.isBlank_of_mem_write hv) hafter, hx]
  refine ⟨⟨v.ty, x⟩, hread, rfl, hsame, hequal, fun σ y hy ↦ ⟨σ.insert y ⟨v.ty, x⟩, ?_, ?_, ?_⟩⟩
  · rw [insertText, hy, hread]
  · exact σ.get?_insert_self y _
  · intro z hz
    rw [σ.get?_insert, if_neg hz.symm]

example : (⟨.decimal, ⟨7, Decimal.leastScale⟩⟩ : Value).text = "7e+9223372036854775808" := by
  decide

/-- A small decimal is written with an exponent. -/
theorem insertText_text_small :
    let v : Value := ⟨.decimal, ⟨-1205, 12⟩⟩
    v.InRange ∧ v.text = "-1.205E-9" ∧
      ∃ u : Value, Value.read v.ty (" " ++ v.text ++ "\n") = .ok u ∧ u.ty = v.ty ∧
        (v.ty ≠ .decimal → u = v) ∧ (v.ty = .decimal → u.equal v) ∧
        ∀ (σ : Valuation) (x : Variable), x.ty = v.ty →
          ∃ τ, σ.insertText x (" " ++ v.text ++ "\n") = .ok τ ∧ τ.get? x = some u ∧
            ∀ y ≠ x, τ.get? y = σ.get? y :=
  have hspace : ∀ c ∈ " ".toList, Text.isBlank c := List.forall_mem_singleton.2 rfl
  have hline : ∀ c ∈ "\n".toList, Text.isBlank c := List.forall_mem_singleton.2 rfl
  ⟨by decide, by decide, insertText_text (by decide) hspace hline⟩

end Valuation

end ConstraintSearch

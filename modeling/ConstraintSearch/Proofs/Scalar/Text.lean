import ConstraintSearch.Proofs.BinaryFloat.Text
import ConstraintSearch.Proofs.Scalar.Conversion

/-!
# Text of scalars

A scalar is read back from its text at its own kind. The text has no blanks, so it is read back
as a value of a source type as well.
-/

namespace ConstraintSearch

/-! ### Blanks -/

namespace Text

theorem isBlank_of_isDigit {c : Char} (h : c.isDigit) : isBlank c = false := by
  simp only [Char.isDigit, Bool.and_eq_true, decide_eq_true_eq, UInt32.le_iff_toNat_le] at h
  have hlow : 48 ≤ c.toNat := h.1
  have hhigh : c.toNat ≤ 57 := h.2
  simp [isBlank, blankRanges]
  omega

/-- Of a text without blanks between blanks the blanks are trimmed off. -/
theorem trim_append {before cs after : List Char} (hbefore : ∀ c ∈ before, isBlank c)
    (hcs : ∀ c ∈ cs, isBlank c = false) (hafter : ∀ c ∈ after, isBlank c) :
    trim (before ++ cs ++ after) = cs := by
  cases cs with
  | nil =>
    have hnone : (before ++ [] ++ after).dropWhile isBlank = [] := by
      rw [List.append_nil, List.dropWhile_eq_nil_iff, List.forall_mem_append]
      exact ⟨hbefore, hafter⟩
    rw [trim, hnone]
    rfl
  | cons c cs =>
    have hhead : ∀ b ∈ (c :: cs ++ after).head?, isBlank b = false := by
      simpa using hcs c List.mem_cons_self
    rw [trim, List.append_assoc, dropWhile_append hbefore hhead, trimEnd, List.reverse_append,
      dropWhile_append (fun b hb ↦ hafter b (List.mem_reverse.1 hb)) fun b hb ↦
        hcs b (List.mem_reverse.1 (List.mem_of_mem_head? hb)), List.reverse_reverse]

/-- A text without blanks is not trimmed. -/
theorem trim_eq_self {cs : List Char} (h : ∀ c ∈ cs, isBlank c = false) : trim cs = cs := by
  have htrim := trim_append (List.forall_mem_nil _) h (List.forall_mem_nil _)
  rwa [List.nil_append, List.append_nil] at htrim

end Text

/-! ### Written numbers have no blanks -/

theorem Text.isBlank_of_mem_writeInt {i : Int} : ∀ c ∈ writeInt i, isBlank c = false := by
  intro c hc
  rcases mem_writeInt hc with hc | rfl
  · exact isBlank_of_isDigit hc
  · decide

theorem BinaryFloat.isBlank_of_mem_write {w : Width} (layout : FloatLayout) (x : BinaryFloat w) :
    ∀ c ∈ x.write layout, Text.isBlank c = false := by
  intro c hc
  have hletters : ∀ c ∈ ['.', '-', 'e', 'N', 'a', 'i', 'n', 'f'], Text.isBlank c = false := by
    simp [Text.isBlank, Text.blankRanges]
  rcases mem_write hc with hc | hc
  · exact Text.isBlank_of_isDigit hc
  · exact hletters c hc

namespace Scalar

/-- A scalar is read back from its text at its kind. -/
theorem read_write (v : Scalar) : read v.kind v.write = some v.value := by
  match v with
  | ⟨.bool, true⟩ => rfl
  | ⟨.bool, false⟩ => rfl
  | ⟨.num (.integral w), x⟩ => exact Word.read_write x
  | ⟨.num (.real w), x⟩ => exact BinaryFloat.read_write .plain x

theorem isBlank_of_mem_write (v : Scalar) : ∀ c ∈ v.write, Text.isBlank c = false := by
  match v with
  | ⟨.bool, true⟩ => simp [write, Text.isBlank, Text.blankRanges]
  | ⟨.bool, false⟩ => simp [write, Text.isBlank, Text.blankRanges]
  | ⟨.num (.integral w), x⟩ => exact Text.isBlank_of_mem_writeInt
  | ⟨.num (.real w), x⟩ => exact BinaryFloat.isBlank_of_mem_write .plain x

/-- A number is not read from the text of a boolean. -/
theorem read_num_write_bool (k : NumKind) (b : Bool) :
    read (.num k) (write ⟨.bool, b⟩) = none := by
  cases k with
  | integral w => cases w <;> cases b <;> rfl
  | real w => cases w <;> cases b <;> rfl

/-- A boolean is read from its own text only. -/
theorem eq_write_of_read_bool {cs : List Char} {b : Bool} (h : read .bool cs = some b) :
    cs = write ⟨.bool, b⟩ := by
  have hread : (if cs = write ⟨.bool, true⟩ then some true
      else if cs = write ⟨.bool, false⟩ then some false else none) = some b := h
  split at hread
  · next hcs =>
    cases hread
    exact hcs
  · split at hread
    · next hcs =>
      cases hread
      exact hcs
    · cases hread

/-- A boolean is not read from the text of a number: that text is read as a number, and the one of
a boolean is not. -/
theorem read_bool_write_num {k : NumKind} (x : k.Carrier) :
    read .bool (write ⟨.num k, x⟩) = none := by
  rcases h : read .bool (write ⟨.num k, x⟩) with - | b
  · rfl
  · have hread := read_write ⟨.num k, x⟩
    rw [eq_write_of_read_bool h, read_num_write_bool] at hread
    cases hread

/-- What does not convert to a kind is not read at that kind. -/
theorem read_write_of_convert?_eq_none {v : Scalar} {k : Kind} (h : v.convert? k = none) :
    read k v.write = none := by
  match v, k with
  | ⟨.bool, b⟩, .num k => exact read_num_write_bool k b
  | ⟨.num _, x⟩, .bool => exact read_bool_write_num x
  | ⟨.bool, _⟩, .bool => cases h
  | ⟨.num _, _⟩, .num _ => cases h

end Scalar

/-- To read a value from the text of a scalar is to read a scalar, at the kind of the type. -/
theorem Value.read_text_eq (k : Kind) (v : Scalar) :
    read (Ty.ofKind k) v.text =
      (Scalar.read k v.write).elim (.error ⟨Ty.ofKind k, v.text⟩) fun x ↦
        .ok (ofScalar ⟨k, x⟩) := by
  have htrim : Text.trim v.text.toList = v.write := by
    rw [Scalar.text, String.toList_ofList, Text.trim_eq_self v.isBlank_of_mem_write]
  rw [read, htrim]
  cases k with
  | bool =>
    have hdatum : readDatum? .bool v.write = Scalar.read .bool v.write := rfl
    dsimp only [Ty.ofKind]
    rw [hdatum]
    rcases Scalar.read .bool v.write with - | x <;> rfl
  | num k =>
    have hdatum : readDatum? (.num (.machine k)) v.write = Scalar.read (.num k) v.write := rfl
    dsimp only [Ty.ofKind]
    rw [hdatum]
    rcases Scalar.read (.num k) v.write with - | x <;> rfl

/-- A scalar is read back from its text as a value of the type of its kind. -/
theorem Value.read_text (v : Scalar) : read (Ty.ofKind v.kind) v.text = .ok (ofScalar v) := by
  rw [read_text_eq, v.read_write]
  rfl

end ConstraintSearch

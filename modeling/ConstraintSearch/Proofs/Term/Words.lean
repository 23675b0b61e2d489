import ConstraintSearch.Proofs.Scalar.Text
import ConstraintSearch.Term.Printing

/-!
# Words of a term

The text of a term falls into words, which end at blanks and parentheses. Constants, numbers and
the names of literals are words, and each of them can be recovered from its word: the kind of a
constant from the last character, and its value from what stands in front.
-/

namespace ConstraintSearch

/-! ### Words -/

namespace Text

/-- The character may stand in a word: it is no blank and no parenthesis. -/
def isPlain (c : Char) : Bool :=
  c != ' ' && c != '(' && c != ')'

theorem isPlain_of_isDigit {c : Char} (h : c.isDigit) : isPlain c := by
  have hne : c ≠ ' ' ∧ c ≠ '(' ∧ c ≠ ')' := by
    refine ⟨?_, ?_, ?_⟩ <;>
    · rintro rfl
      cases h
  simp [isPlain, hne]

theorem isPlain_of_mem_digits {n : Nat} : ∀ c ∈ digits n, isPlain c := fun _ hc ↦
  isPlain_of_isDigit (isDigit_of_mem_digits hc)

theorem isPlain_of_mem_writeInt {i : Int} : ∀ c ∈ writeInt i, isPlain c := by
  intro c hc
  rcases mem_writeInt hc with hc | rfl
  · exact isPlain_of_isDigit hc
  · rfl

/-- A number ends in a digit. -/
theorem exists_getLast?_writeInt (i : Int) :
    ∃ c, c.isDigit ∧ (writeInt i).getLast? = some c := by
  have hdigits (n : Nat) : ∃ c, c.isDigit ∧ (digits n).getLast? = some c :=
    ⟨(digits n).getLast (digits_ne_nil n), isDigit_of_mem_digits (List.getLast_mem _),
      List.getLast?_eq_some_getLast _⟩
  cases i with
  | ofNat n => exact hdigits n
  | negSucc n =>
    obtain ⟨c, hc, hlast⟩ := hdigits (n + 1)
    exact ⟨c, hc, by rw [writeInt, List.getLast?_cons, hlast]; rfl⟩

/-- Two texts that begin with a word each, and are the same, begin with the same word. -/
theorem append_inj_of_isPlain {v w r s : List Char} (hv : ∀ c ∈ v, isPlain c)
    (hw : ∀ c ∈ w, isPlain c) (hr : ∀ c ∈ r.head?, isPlain c = false)
    (hs : ∀ c ∈ s.head?, isPlain c = false) (h : v ++ r = w ++ s) : v = w ∧ r = s := by
  have htake {r : List Char} (hr : ∀ c ∈ r.head?, isPlain c = false) :
      r.takeWhile isPlain = [] := by
    cases r with
    | nil => rfl
    | cons c cs => simp [hr c rfl]
  have hwords := congrArg (List.takeWhile isPlain) h
  rw [List.takeWhile_append_of_pos hv, List.takeWhile_append_of_pos hw, htake hr, htake hs,
    List.append_nil, List.append_nil] at hwords
  rw [hwords] at h
  exact ⟨hwords, List.append_cancel_left h⟩

end Text

theorem BinaryFloat.isPlain_of_mem_write {w : Width} (layout : FloatLayout) (x : BinaryFloat w) :
    ∀ c ∈ x.write layout, Text.isPlain c := by
  intro c hc
  have hletters : ∀ c ∈ ['.', '-', 'e', 'N', 'a', 'i', 'n', 'f'], Text.isPlain c :=
    List.all_eq_true.1 rfl
  rcases mem_write hc with hc | hc
  · exact Text.isPlain_of_isDigit hc
  · exact hletters c hc

/-! ### Constants and literals -/

/-- The kind that the last character of a constant shows. -/
def Kind.ofConstant (cs : List Char) : Kind :=
  match cs.getLast? with
  | some 'e' => .bool
  | some 'L' => .long
  | some 'f' => .float
  | some 'd' => .double
  | _ => .int

theorem Kind.ofConstant_constantText : (k : Kind) → (x : k.Carrier) →
    ofConstant (constantText k x).toList = k
  | .bool, true => rfl
  | .bool, false => rfl
  | .int, x => by
    obtain ⟨c, hc, hlast⟩ := Text.exists_getLast?_writeInt x.toInt
    rw [constantText, String.toList_ofList, ofConstant, Word.write, hlast]
    -- A digit is none of the letters that show another kind.
    split <;> simp_all
  | .long, x => by simp [constantText, ofConstant]
  | .float, x => by simp [constantText, ofConstant]
  | .double, x => by simp [constantText, ofConstant]

theorem isPlain_of_mem_constantText : (k : Kind) → (x : k.Carrier) →
    ∀ c ∈ (constantText k x).toList, Text.isPlain c
  | .bool, true => List.all_eq_true.1 rfl
  | .bool, false => List.all_eq_true.1 rfl
  | .int, x => by
    rw [constantText, String.toList_ofList]
    exact Text.isPlain_of_mem_writeInt
  | .long, x => by
    rw [constantText, String.toList_append, String.toList_ofList, List.forall_mem_append]
    exact ⟨Text.isPlain_of_mem_writeInt, List.all_eq_true.1 rfl⟩
  | .float, x => by
    rw [constantText, String.toList_append, String.toList_ofList, List.forall_mem_append]
    exact ⟨x.isPlain_of_mem_write .marked, List.all_eq_true.1 rfl⟩
  | .double, x => by
    rw [constantText, String.toList_append, String.toList_ofList, List.forall_mem_append]
    exact ⟨x.isPlain_of_mem_write .marked, List.all_eq_true.1 rfl⟩

theorem constantText_toList_ne_nil : (k : Kind) → (x : k.Carrier) →
    (constantText k x).toList ≠ []
  | .bool, true => by decide
  | .bool, false => by decide
  | .int, x => by
    obtain ⟨c, -, hlast⟩ := Text.exists_getLast?_writeInt x.toInt
    rw [constantText, String.toList_ofList]
    exact List.ne_nil_of_mem (List.mem_of_getLast? hlast)
  | .long, x => by simp [constantText]
  | .float, x => by simp [constantText]
  | .double, x => by simp [constantText]

theorem Word.write_injective {w : Width} : Function.Injective (write (w := w)) := fun x y h ↦
  Option.some_injective _ <| by rw [← read_write x, h, read_write]

theorem BinaryFloat.write_injective {w : Width} (layout : FloatLayout) :
    Function.Injective (write (w := w) layout) := fun x y h ↦
  Option.some_injective _ <| by rw [← read_write layout x, h, read_write]

/-- Different data of a kind have different texts. -/
theorem constantText_injective : (k : Kind) → Function.Injective (constantText k)
  | .bool => by
    intro a b h
    cases a <;> cases b <;> first | rfl | cases h
  | .int => fun x y h ↦ Word.write_injective (String.ofList_injective h)
  | .long => fun x y h ↦ Word.write_injective (by simpa [constantText, String.ofList_inj] using h)
  | .float => fun x y h ↦
    BinaryFloat.write_injective .marked (by simpa [constantText, String.ofList_inj] using h)
  | .double => fun x y h ↦
    BinaryFloat.write_injective .marked (by simpa [constantText, String.ofList_inj] using h)

/-- A constant is determined by its text, and so is its kind. -/
theorem scalar_eq_of_constantText_eq {v w : Scalar}
    (h : constantText v.kind v.value = constantText w.kind w.value) : v = w := by
  obtain ⟨k, x⟩ := v
  obtain ⟨k', y⟩ := w
  obtain rfl : k = k' := by
    rw [← k.ofConstant_constantText x, h, k'.ofConstant_constantText y]
  exact congrArg (Scalar.mk k) (constantText_injective k h)

theorem Kind.isPlain_of_mem_literalName (k : Kind) :
    ∀ c ∈ k.literalName.toList, Text.isPlain c := by
  obtain - | (- | -) | (- | -) := k <;> exact List.all_eq_true.1 rfl

theorem Kind.literalName_injective : Function.Injective literalName := by
  intro k v h
  obtain - | (- | -) | (- | -) := k <;> obtain - | (- | -) | (- | -) := v <;>
    first | rfl | exact absurd h (by decide)

theorem Kind.literalName_toList_ne_nil (k : Kind) : k.literalName.toList ≠ [] := by
  obtain - | (- | -) | (- | -) := k <;> decide

theorem literalText_toList (k : Kind) (id : Nat) :
    (literalText k id).toList = k.literalName.toList ++ '(' :: (Text.digits id ++ [')']) := by
  simp [literalText]

end ConstraintSearch

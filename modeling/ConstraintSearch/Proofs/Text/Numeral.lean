import ConstraintSearch.Proofs.Word
import Mathlib.Data.List.DropRight
import Mathlib.Tactic.Positivity

/-!
# Numerals

The value of a list of digits, and the round trip of integers through their numerals. Digits are
read from left to right, and the number read so far only moves away from zero, so it stays in
the range if the whole number is in it.
-/

namespace ConstraintSearch.Text

/-! ### Runs of characters -/

/-- Wanted characters are dropped up to the first that is not wanted. -/
theorem dropWhile_append {p : Char → Bool} {cs tail : List Char} (hcs : ∀ c ∈ cs, p c)
    (htail : ∀ c ∈ tail.head?, p c = false) : (cs ++ tail).dropWhile p = tail := by
  rw [List.dropWhile_append_of_pos hcs]
  cases tail with
  | nil => rfl
  | cons c tail => rw [List.dropWhile_cons_of_neg (by simp [htail c rfl])]

/-- A text is split where the first character that is not wanted stands. -/
theorem span_append {p : Char → Bool} {cs tail : List Char} (hcs : ∀ c ∈ cs, p c)
    (htail : ∀ c ∈ tail.head?, p c = false) : (cs ++ tail).span p = (cs, tail) := by
  rw [List.span_eq_takeWhile_dropWhile, dropWhile_append hcs htail,
    List.takeWhile_append_of_pos hcs]
  cases tail with
  | nil => simp
  | cons c tail => simp [htail c rfl]

/-! ### Digits -/

theorem isDigit_of_mem_digits {n : Nat} {c : Char} (h : c ∈ digits n) : c.isDigit :=
  Nat.isDigit_of_mem_toDigits (by decide) (by decide) h

theorem digits_ne_nil (n : Nat) : digits n ≠ [] :=
  Nat.toDigits_ne_nil

theorem digits_injective {m n : Nat} (h : digits m = digits n) : m = n := by
  rw [← ofDigits_digits m, h, ofDigits_digits]

/-- An integer is written with digits and a minus sign. -/
theorem mem_writeInt {i : Int} {c : Char} (h : c ∈ writeInt i) : c.isDigit ∨ c = '-' := by
  cases i with
  | ofNat n => exact .inl (isDigit_of_mem_digits h)
  | negSucc n => exact (List.mem_cons.1 h).symm.imp_left isDigit_of_mem_digits

theorem ofDigits_append (cs ds : List Char) :
    ofDigits (cs ++ ds) = ofDigits cs * 10 ^ ds.length + ofDigits ds := by
  rw [ofDigits, Nat.ofDigitChars_append, Nat.ofDigitChars_eq_ofDigitChars_zero, Nat.mul_comm]
  rfl

theorem ofDigits_replicate_zero (k : Nat) : ofDigits (List.replicate k '0') = 0 := by
  simp [ofDigits]

/-- The digits of a number are what is left without zeros at the end, and these zeros. -/
theorem exists_rdropWhile_append (n : Nat) :
    ∃ k, (digits n).rdropWhile (· == '0') ++ List.replicate k '0' = digits n := by
  have hsplit : (digits n).rdropWhile (· == '0') ++ (digits n).rtakeWhile (· == '0') = digits n :=
    List.rdropWhile_append_rtakeWhile
  have hzeros : ∀ c ∈ (digits n).rtakeWhile (· == '0'), c = '0' := fun c hc ↦
    eq_of_beq (List.mem_rtakeWhile_imp (p := (· == '0')) hc)
  exact ⟨_, List.eq_replicate_of_mem hzeros ▸ hsplit⟩

/-- A number has as many digits as its size asks for. -/
theorem digitCount_le_iff {n k : Nat} (hk : 0 < k) : digitCount n ≤ k ↔ n < 10 ^ k :=
  Nat.length_toDigits_le_iff (by decide) hk

theorem lt_pow_digitCount (n : Nat) : n < 10 ^ digitCount n :=
  (digitCount_le_iff Nat.length_toDigits_pos).1 le_rfl

theorem pow_digitCount_le {n : Nat} (hn : 0 < n) : 10 ^ (digitCount n - 1) ≤ n := by
  rcases Nat.eq_zero_or_pos (digitCount n - 1) with h | h
  · rw [h]
    exact hn
  · by_contra hlt
    have hle := (digitCount_le_iff h).2 (Nat.not_le.1 hlt)
    omega

/-! ### Reading -/

/-- An integer with its sign given apart. -/
def withSign (negative : Bool) (n : Nat) : Int :=
  if negative then -n else n

/-- Digits are read onto a number as long as the result is in the range. -/
theorem readDigits_eq (negative : Bool) {least greatest : Int} {cs : List Char} {n : Nat}
    (hcs : ∀ c ∈ cs, c.isDigit) (hleast : least ≤ 0) (hgreatest : 0 ≤ greatest)
    (hlow : least ≤ withSign negative (Nat.ofDigitChars 10 cs n))
    (hhigh : withSign negative (Nat.ofDigitChars 10 cs n) ≤ greatest) :
    readDigits negative least greatest (withSign negative n) cs =
      .ok (withSign negative (Nat.ofDigitChars 10 cs n)) := by
  induction cs generalizing n with
  | nil => rfl
  | cons c cs ih =>
    have hc : c.isDigit := hcs c (by simp)
    rw [Nat.ofDigitChars_cons] at hlow hhigh ⊢
    generalize hm : 10 * n + (c.toNat - '0'.toNat) = m at hlow hhigh ⊢
    have hnext : (if negative then 10 * withSign negative n - (c.toNat - '0'.toNat : Int)
        else 10 * withSign negative n + (c.toNat - '0'.toNat : Int)) = withSign negative m := by
      have h48 : '0'.toNat ≤ c.toNat := by
        simp only [Char.isDigit, Bool.and_eq_true, decide_eq_true_eq] at hc
        exact UInt32.le_iff_toNat_le.1 hc.1
      cases negative <;> simp only [withSign, Bool.false_eq_true, if_true, if_false] <;> omega
    have hle : m ≤ Nat.ofDigitChars 10 cs m := by
      rw [Nat.ofDigitChars_eq_ofDigitChars_zero]
      exact le_add_right (Nat.le_mul_of_pos_left m (by positivity))
    rw [readDigits, if_pos hc]
    dsimp only
    rw [hnext, if_neg, if_neg]
    · exact ih (fun d hd ↦ hcs d (by simp [hd])) hlow hhigh
    · cases negative <;> simp only [withSign, Bool.false_eq_true, if_true, if_false] at * <;> omega
    · cases negative <;> simp only [withSign, Bool.false_eq_true, if_true, if_false] at * <;> omega

theorem readInt_digits {least greatest : Int} {cs : List Char} (hne : cs ≠ [])
    (hcs : ∀ c ∈ cs, c.isDigit) :
    readInt least greatest cs = readDigits false least greatest 0 cs := by
  obtain ⟨c, cs, rfl⟩ := List.exists_cons_of_ne_nil hne
  have hc : c.isDigit := hcs c (by simp)
  unfold readInt
  split
  · next h => cases h
  · next h => cases h; cases hc
  · next h => cases h; cases hc
  · next h => cases h; cases hc
  · next h => cases h; cases hc
  · rfl

theorem readInt_minus {least greatest : Int} {cs : List Char} (hne : cs ≠ []) :
    readInt least greatest ('-' :: cs) = readDigits true least greatest 0 cs := by
  obtain ⟨c, cs, rfl⟩ := List.exists_cons_of_ne_nil hne
  rfl

theorem readInt_plus {least greatest : Int} {cs : List Char} (hne : cs ≠ []) :
    readInt least greatest ('+' :: cs) = readDigits false least greatest 0 cs := by
  obtain ⟨c, cs, rfl⟩ := List.exists_cons_of_ne_nil hne
  rfl

/-- An integer in the range is read from its numeral. -/
theorem readInt_writeInt {least greatest i : Int} (hleast : least ≤ 0) (hgreatest : 0 ≤ greatest)
    (hlow : least ≤ i) (hhigh : i ≤ greatest) : readInt least greatest (writeInt i) = .ok i := by
  have hvalue (n : Nat) : Nat.ofDigitChars 10 (digits n) 0 = n := ofDigits_digits n
  cases i with
  | ofNat n =>
    have hread := readDigits_eq false (n := 0) (fun c ↦ isDigit_of_mem_digits)
      hleast hgreatest (by rwa [hvalue n]) (by rwa [hvalue n])
    rw [hvalue n] at hread
    rw [writeInt, readInt_digits (digits_ne_nil n) fun c ↦ isDigit_of_mem_digits]
    exact hread
  | negSucc n =>
    have hread := readDigits_eq true (n := 0) (fun c ↦ isDigit_of_mem_digits)
      hleast hgreatest (by rwa [hvalue (n + 1)]) (by rwa [hvalue (n + 1)])
    rw [hvalue (n + 1)] at hread
    rw [writeInt, readInt_minus (digits_ne_nil _)]
    exact hread

/-- What is read onto a number in the range stays in the range. -/
theorem mem_range_of_readDigits {negative : Bool} {least greatest i j : Int} {cs : List Char}
    (hi : least ≤ i ∧ i ≤ greatest) (h : readDigits negative least greatest i cs = .ok j) :
    least ≤ j ∧ j ≤ greatest := by
  induction cs generalizing i with
  | nil =>
    cases h
    exact hi
  | cons c cs ih =>
    rw [readDigits] at h
    split at h
    · dsimp only at h
      generalize (if negative then _ else _ : Int) = next at h
      split at h
      · cases h
      · next hlow =>
        split at h
        · cases h
        · next hhigh => exact ih ⟨Int.not_lt.1 hlow, Int.not_lt.1 hhigh⟩ h
    · cases h

/-- An integer that is read is in the range. -/
theorem mem_range_of_readInt {least greatest i : Int} {cs : List Char} (hleast : least ≤ 0)
    (hgreatest : 0 ≤ greatest) (h : readInt least greatest cs = .ok i) :
    least ≤ i ∧ i ≤ greatest := by
  unfold readInt at h
  split at h
  case h_1 | h_2 | h_3 => cases h
  all_goals exact mem_range_of_readDigits ⟨hleast, hgreatest⟩ h

end ConstraintSearch.Text

namespace ConstraintSearch.Word

variable {w : Width}

/-- A word is read from its numeral. -/
theorem read_write (a : Word w) : read w a.write = some a := by
  have hleast : least w ≤ 0 := by cases w <;> decide
  have hgreatest : 0 ≤ greatest w := by cases w <;> decide
  obtain ⟨hlow, hhigh⟩ := fits_toInt a
  rw [read, write, Text.readInt_writeInt hleast hgreatest hlow hhigh]
  exact congrArg some (wrap_toInt a)

end ConstraintSearch.Word

import ConstraintSearch.Proofs.BinaryFloat.Decimal

/-!
# Text of floating-point numbers

A number that is written is read back, the NaN, the infinities and the two zeros included, in
whatever layout it is written. Between the two stands the *numeral* of a list of digits before the
point and one behind it: what is written is such a numeral, with an exponent or without one, and the
number read from it depends on its digits and the exponent alone.
-/

namespace ConstraintSearch

/-! ### Numerals with a point -/

/-- The digits before the point, and those behind it unless there are none. -/
def numeral (whole fraction : List Char) : List Char :=
  whole ++ if fraction.isEmpty then [] else '.' :: fraction

theorem mem_numeral {whole fraction : List Char} {c : Char}
    (hdigit : ∀ c ∈ whole ++ fraction, c.isDigit) (h : c ∈ numeral whole fraction) :
    c.isDigit ∨ c = '.' := by
  rw [List.forall_mem_append] at hdigit
  rcases List.mem_append.1 h with h | h
  · exact .inl (hdigit.1 c h)
  · split at h
    · cases h
    · exact (List.mem_cons.1 h).symm.imp_left (hdigit.2 c)

namespace DecimalDigits

/-- Written with the point at its place, the digits are the numeral of `whole` and `fraction`,
which are digits with the same value. -/
structure SplitsInto (wholePoint : Bool) (d : DecimalDigits) (whole fraction : List Char) :
    Prop where
  ne_nil : whole ≠ []
  isDigit : ∀ c ∈ whole ++ fraction, c.isDigit
  text : d.positional wholePoint = numeral whole fraction
  value : (Text.ofDigits (whole ++ fraction) : ℚ) * 10 ^ (-(fraction.length : ℤ)) =
    Text.ofDigits d.digits * 10 ^ (d.point - d.digits.length)

variable {wholePoint : Bool} {d : DecimalDigits}

theorem isDigit_of_mem_zeros {k : Nat} : ∀ c ∈ List.replicate k '0', c.isDigit := by
  intro c hc
  rw [List.eq_of_mem_replicate hc]
  rfl

/-- Digits behind the point, with zeros in front. -/
theorem splitsInto_of_nonpos (hne : d.digits ≠ []) (hdigit : ∀ c ∈ d.digits, c.isDigit)
    (hp : d.point ≤ 0) :
    d.SplitsInto wholePoint ['0'] (List.replicate (-d.point).toNat '0' ++ d.digits) where
  ne_nil := List.cons_ne_nil _ _
  isDigit := by
    rw [List.forall_mem_append, List.forall_mem_append]
    exact ⟨isDigit_of_mem_zeros (k := 1), isDigit_of_mem_zeros, hdigit⟩
  text := by
    rw [positional, if_pos hp, numeral, if_neg (by simp [hne])]
    rfl
  value := by
    have hvalue : Text.ofDigits (['0'] ++ (List.replicate (-d.point).toNat '0' ++ d.digits)) =
        Text.ofDigits d.digits := by
      rw [Text.ofDigits_append, Text.ofDigits_append, Text.ofDigits_replicate_zero,
        show Text.ofDigits ['0'] = 0 by rfl, Nat.zero_mul, Nat.zero_mul, Nat.zero_add, Nat.zero_add]
    have hplaces : -((List.replicate (-d.point).toNat '0' ++ d.digits).length : ℤ) =
        d.point - d.digits.length := by
      rw [List.length_append, List.length_replicate]
      omega
    rw [hvalue, hplaces]

/-- Digits in front of the point, with zeros up to it, and a zero behind it where whole numbers have
one. -/
theorem splitsInto_of_length_le (hne : d.digits ≠ []) (hdigit : ∀ c ∈ d.digits, c.isDigit)
    (hp : 0 < d.point) (h : d.digits.length ≤ d.point.toNat) :
    d.SplitsInto wholePoint (d.digits ++ List.replicate (d.point.toNat - d.digits.length) '0')
      (List.replicate wholePoint.toNat '0') where
  ne_nil := by simp [hne]
  isDigit := by
    rw [List.forall_mem_append, List.forall_mem_append]
    exact ⟨⟨hdigit, isDigit_of_mem_zeros⟩, isDigit_of_mem_zeros⟩
  text := by cases wholePoint <;> simp [positional, numeral, h, not_le.2 hp]
  value := by
    have hplaces : d.point - d.digits.length = ((d.point.toNat - d.digits.length : ℕ) : ℤ) := by
      omega
    rw [Text.ofDigits_append, Text.ofDigits_append, Text.ofDigits_replicate_zero,
      Text.ofDigits_replicate_zero, hplaces, zpow_natCast, List.length_replicate,
      List.length_replicate]
    cases wholePoint <;> simp

/-- Digits on both sides of the point. -/
theorem splitsInto_of_lt_length (hdigit : ∀ c ∈ d.digits, c.isDigit) (hp : 0 < d.point)
    (h : d.point.toNat < d.digits.length) :
    d.SplitsInto wholePoint (d.digits.take d.point.toNat) (d.digits.drop d.point.toNat) where
  ne_nil := by
    rw [Ne, List.take_eq_nil_iff, ← List.length_eq_zero_iff]
    omega
  isDigit := by rwa [List.take_append_drop]
  text := by simp [positional, numeral, not_le.2 hp, not_le.2 h]
  value := by
    have hplaces : -((d.digits.drop d.point.toNat).length : ℤ) = d.point - d.digits.length := by
      rw [List.length_drop]
      omega
    rw [List.take_append_drop, hplaces]

/-- Digits with the point at its place are a numeral with the value of the digits. -/
theorem exists_splitsInto (wholePoint : Bool) (hne : d.digits ≠ [])
    (hdigit : ∀ c ∈ d.digits, c.isDigit) :
    ∃ whole fraction, d.SplitsInto wholePoint whole fraction := by
  rcases le_or_gt d.point 0 with hp | hp
  · exact ⟨_, _, splitsInto_of_nonpos hne hdigit hp⟩
  · rcases le_or_gt d.digits.length d.point.toNat with h | h
    · exact ⟨_, _, splitsInto_of_length_le hne hdigit hp h⟩
    · exact ⟨_, _, splitsInto_of_lt_length hdigit hp h⟩

/-- With an exponent, the first digit stands before the point and all others behind it. -/
theorem scientific_eq (d : DecimalDigits) :
    d.scientific =
      numeral (d.digits.take 1) (d.digits.drop 1) ++ 'e' :: Text.writeInt (d.point - 1) := by
  unfold scientific numeral
  simp only [List.isEmpty_iff, List.drop_eq_nil_iff]

/-- What is written begins with a digit. -/
theorem exists_write_eq_cons (layout : FloatLayout) (hne : d.digits ≠ [])
    (hdigit : ∀ c ∈ d.digits, c.isDigit) : ∃ c cs, c.isDigit ∧ d.write layout = c :: cs := by
  unfold write
  split
  · obtain ⟨whole, fraction, hsplit⟩ := exists_splitsInto layout.wholePoint hne hdigit
    obtain ⟨c, cs, rfl⟩ := List.exists_cons_of_ne_nil hsplit.ne_nil
    exact ⟨c, _, hsplit.isDigit c List.mem_cons_self, hsplit.text⟩
  · obtain ⟨c, cs, hd⟩ := List.exists_cons_of_ne_nil hne
    rw [scientific_eq, hd]
    exact ⟨c, _, hdigit c (hd ▸ List.mem_cons_self), rfl⟩

/-- Written digits consist of digits, points, minus signs and the letter of exponents. -/
theorem mem_write {layout : FloatLayout} {c : Char} (hne : d.digits ≠ [])
    (hdigit : ∀ c ∈ d.digits, c.isDigit) (h : c ∈ d.write layout) :
    c.isDigit ∨ c ∈ ['.', '-', 'e'] := by
  unfold write at h
  split at h
  · obtain ⟨whole, fraction, hsplit⟩ := exists_splitsInto layout.wholePoint hne hdigit
    rw [hsplit.text] at h
    exact (mem_numeral hsplit.isDigit h).imp_right fun hc ↦ by simp [hc]
  · have hsplit : ∀ c ∈ d.digits.take 1 ++ d.digits.drop 1, c.isDigit := by
      rwa [List.take_append_drop]
    rw [scientific_eq, List.mem_append, List.mem_cons] at h
    rcases h with h | rfl | h
    · exact (mem_numeral hsplit h).imp_right fun hc ↦ by simp [hc]
    · exact .inr (by simp)
    · exact (Text.mem_writeInt h).imp_right fun hc ↦ by simp [hc]

end DecimalDigits

namespace BinaryFloat

variable {w : Width}

/-- A digit has no case. -/
theorem toLower_of_isDigit {c : Char} (h : c.isDigit) : c.toLower = c := by
  simp only [Char.isDigit, Bool.and_eq_true, decide_eq_true_eq] at h
  refine dif_neg fun hupper ↦ ?_
  exact absurd (UInt32.le_trans hupper.1 h.2) (by decide)

/-- A text that begins with a digit is not the name of a number. -/
theorem ofList_map_toLower_ne {c : Char} {cs : List Char} {name : String} (hc : c.isDigit)
    (hname : name.toList.head?.all fun b ↦ !b.isDigit) :
    String.ofList ((c :: cs).map Char.toLower) ≠ name := by
  rintro rfl
  simp [toLower_of_isDigit hc, hc] at hname

/-- The number read from a numeral, in front of what may be an exponent. -/
theorem readUnsigned_numeral (negative : Bool) {whole fraction tail : List Char} (hne : whole ≠ [])
    (hdigit : ∀ c ∈ whole ++ fraction, c.isDigit)
    (htail : ∀ c ∈ tail.head?, c.isDigit = false ∧ c ≠ '.') :
    readUnsigned w negative (numeral whole fraction ++ tail) =
      (readExponent tail).map fun e ↦
        ofDecimal w negative (Text.ofDigits (whole ++ fraction)) (e - fraction.length) := by
  rw [List.forall_mem_append] at hdigit
  obtain ⟨hwhole, hfraction⟩ := hdigit
  have hname {name : String} (h : name.toList.head?.all fun b ↦ !b.isDigit) :
      String.ofList ((numeral whole fraction ++ tail).map Char.toLower) ≠ name := by
    obtain ⟨c, cs, rfl⟩ := List.exists_cons_of_ne_nil hne
    exact ofList_map_toLower_ne (hwhole c List.mem_cons_self) h
  have htake : tail.takeWhile Char.isDigit = [] := by
    cases tail with
    | nil => rfl
    | cons c cs => simp [(htail c rfl).1]
  have hdrop : tail.dropWhile Char.isDigit = tail := by
    cases tail with
    | nil => rfl
    | cons c cs => simp [(htail c rfl).1]
  unfold readUnsigned
  dsimp only
  rw [if_neg (hname rfl), if_neg (not_or.2 ⟨hname rfl, hname rfl⟩)]
  unfold numeral
  rw [List.append_assoc, List.takeWhile_append_of_pos hwhole, List.dropWhile_append_of_pos hwhole]
  -- The point is only written where digits follow it.
  cases fraction with
  | nil =>
    cases tail with
    | nil => simp [hne]
    | cons c cs => simp [hne, htake, hdrop, (htail c rfl).2]
  | cons c cs =>
    have hpoint : '.'.isDigit = false := rfl
    generalize hf : c :: cs = fraction at *
    have hempty : fraction.isEmpty = false := by rw [← hf, List.isEmpty_cons]
    simp [hempty, hpoint, List.takeWhile_append_of_pos hfraction,
      List.dropWhile_append_of_pos hfraction, htake, hdrop]

/-- The number that is read from digits with the point at its place. -/
theorem readUnsigned_positional (negative wholePoint : Bool) {m : Magnitude w} {d : DecimalDigits}
    (h : m.Spells d) :
    readUnsigned w negative (d.positional wholePoint) = some (.finite negative m) := by
  obtain ⟨whole, fraction, hsplit⟩ :=
    DecimalDigits.exists_splitsInto wholePoint h.ne_nil h.isDigit
  have hread : readUnsigned w negative (numeral whole fraction ++ []) = _ :=
    readUnsigned_numeral negative hsplit.ne_nil hsplit.isDigit (by simp)
  rw [List.append_nil] at hread
  rw [hsplit.text, hread, readExponent, Option.map_some, zero_sub, ofDecimal_eq,
    Magnitude.ofDecimal?_congr hsplit.value, h.rounds]

/-- An exponent is read back. -/
theorem readExponent_writeInt (i : Int) : readExponent ('e' :: Text.writeInt i) = some i := by
  have hmagnitude (n : Nat) : readExponent.magnitude (Text.digits n) = some n := by
    have hempty : (Text.digits n).isEmpty = false := by simp [Text.digits_ne_nil]
    have hall : (Text.digits n).all Char.isDigit :=
      List.all_eq_true.2 fun c ↦ Text.isDigit_of_mem_digits
    rw [readExponent.magnitude, hempty, hall, Text.ofDigits_digits]
    rfl
  cases i with
  | ofNat n =>
    -- Digits do not begin with a sign.
    obtain ⟨c, cs, hd⟩ := List.exists_cons_of_ne_nil (Text.digits_ne_nil n)
    have hc : c.isDigit := Text.isDigit_of_mem_digits (hd ▸ List.mem_cons_self)
    rw [Text.writeInt, hd]
    unfold readExponent
    dsimp only
    rw [if_pos (Or.inl rfl)]
    split
    · next h => cases h; cases hc
    · next h => cases h; cases hc
    · rw [← hd, hmagnitude]
      rfl
  | negSucc n =>
    show Option.map _ (readExponent.magnitude (Text.digits (n + 1)) >>= _) = _
    rw [hmagnitude]
    rfl

/-- The number that is read from digits with an exponent. -/
theorem readUnsigned_scientific (negative : Bool) {m : Magnitude w} {d : DecimalDigits}
    (h : m.Spells d) : readUnsigned w negative d.scientific = some (.finite negative m) := by
  have hne : d.digits.take 1 ≠ [] := by simp [h.ne_nil]
  have hdigit : ∀ c ∈ d.digits.take 1 ++ d.digits.drop 1, c.isDigit := by
    rw [List.take_append_drop]
    exact h.isDigit
  have hplaces : d.point - 1 - (d.digits.drop 1).length = d.point - d.digits.length := by
    have hpos := List.length_pos_iff.2 h.ne_nil
    rw [List.length_drop]
    omega
  rw [d.scientific_eq, readUnsigned_numeral negative hne hdigit (by simp),
    readExponent_writeInt, Option.map_some, List.take_append_drop, hplaces, ofDecimal_eq, h.rounds]

/-- The number that is read from digits in a layout. -/
theorem readUnsigned_write (negative : Bool) (layout : FloatLayout) {m : Magnitude w}
    {d : DecimalDigits} (h : m.Spells d) :
    readUnsigned w negative (d.write layout) = some (.finite negative m) := by
  unfold DecimalDigits.write
  split
  · exact readUnsigned_positional negative layout.wholePoint h
  · exact readUnsigned_scientific negative h

theorem read_of_isDigit {c : Char} {cs : List Char} (hc : c.isDigit) :
    read w (c :: cs) = readUnsigned w false (c :: cs) := by
  unfold read
  split
  · next h => cases h; cases hc
  · next h => cases h; cases hc
  · rfl

/-- A number is read back from its text. -/
theorem read_write (layout : FloatLayout) (x : BinaryFloat w) :
    read w (x.write layout) = some x := by
  cases x with
  | nan => rfl
  | infinite s => cases s <;> rfl
  | finite s m =>
    have hspells := m.spells_shortestDigits
    have hread := readUnsigned_write s layout hspells
    cases s with
    | true => exact hread
    | false =>
      -- Without a sign the text begins with a digit, which is not taken for one.
      obtain ⟨c, cs, hc, hwrite⟩ :=
        DecimalDigits.exists_write_eq_cons layout hspells.ne_nil hspells.isDigit
      change read w (m.shortestDigits.write layout) = _
      rw [hwrite] at hread ⊢
      exact (read_of_isDigit hc).trans hread

/-- What is written consists of digits, points, minus signs and letters. -/
theorem mem_write {layout : FloatLayout} {x : BinaryFloat w} {c : Char} (h : c ∈ x.write layout) :
    c.isDigit ∨ c ∈ ['.', '-', 'e', 'N', 'a', 'i', 'n', 'f'] := by
  cases x with
  | nan =>
    have hsub : ['N', 'a', 'N'] ⊆ ['.', '-', 'e', 'N', 'a', 'i', 'n', 'f'] := by decide
    exact .inr (hsub h)
  | infinite s =>
    have hsub : write.sign s ++ ['i', 'n', 'f'] ⊆ ['.', '-', 'e', 'N', 'a', 'i', 'n', 'f'] := by
      cases s <;> decide
    exact .inr (hsub h)
  | finite s m =>
    have hspells := m.spells_shortestDigits
    rcases List.mem_append.1 h with h | h
    · have hsub : write.sign s ⊆ ['.', '-', 'e', 'N', 'a', 'i', 'n', 'f'] := by
        cases s <;> decide
      exact .inr (hsub h)
    · have hsub : ['.', '-', 'e'] ⊆ ['.', '-', 'e', 'N', 'a', 'i', 'n', 'f'] := by decide
      exact (DecimalDigits.mem_write hspells.ne_nil hspells.isDigit h).imp_right fun hc ↦ hsub hc

end BinaryFloat

end ConstraintSearch

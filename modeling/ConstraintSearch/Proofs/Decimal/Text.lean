import ConstraintSearch.Decimal.Text
import ConstraintSearch.Proofs.BinaryFloat.Text
import ConstraintSearch.Proofs.Decimal.Value

/-!
# Text of decimal numbers

A decimal that is written is read back as a decimal of the same value. Whichever form the writer
chooses, what it writes is a numeral with a point, with an exponent behind it or without one, and
the reader only looks at the digits, at the number of places behind the point and at the exponent
(`Numeral.read_text`). The scale is kept but where zeros are appended in place of an exponent.
-/

namespace ConstraintSearch

theorem ne_of_isDigit {b c : Char} (hc : c.isDigit) (hb : b.isDigit = false) : c ≠ b := by
  rintro rfl
  rw [hb] at hc
  cases hc

namespace Decimal

/-! ### Reading a numeral -/

/-- A numeral with a minus in front where it is negative. -/
def withMinus (negative : Bool) (cs : List Char) : List Char :=
  (if negative then ['-'] else []) ++ cs

theorem withMinus_append (negative : Bool) (cs tail : List Char) :
    withMinus negative (cs ++ tail) = withMinus negative cs ++ tail :=
  (List.append_assoc _ _ _).symm

theorem mem_withMinus {negative : Bool} {cs : List Char} {c : Char}
    (h : c ∈ withMinus negative cs) : c = '-' ∨ c ∈ cs := by
  cases negative with
  | true => exact List.mem_cons.1 h
  | false => exact .inr h

theorem filter_underscores {cs : List Char} (hcs : ∀ c ∈ cs, c.isDigit) :
    cs.filter (· != '_') = cs :=
  List.filter_eq_self.2 fun c hc ↦ bne_iff_ne.2 (ne_of_isDigit (hcs c hc) rfl)

theorem readUnsigned_digits {cs : List Char} (hne : cs ≠ []) (hcs : ∀ c ∈ cs, c.isDigit) :
    readUnsigned cs = some (Text.ofDigits cs) := by
  have hall : (cs.all fun c ↦ c.isDigit || c == '_') = true :=
    List.all_eq_true.2 fun c hc ↦ by rw [hcs c hc, Bool.true_or]
  have hunits : readUnits cs = some (Text.ofDigits cs) := by
    unfold readUnits
    split
    · exact absurd rfl hne
    · exact absurd (hcs '_' List.mem_cons_self) (by decide)
    · rw [if_pos hall, filter_underscores hcs]
  unfold readUnsigned
  split
  · exact absurd (hcs '+' List.mem_cons_self) (by decide)
  · exact hunits

theorem readSigned_withMinus (negative : Bool) {cs : List Char} (hne : cs ≠ [])
    (hcs : ∀ c ∈ cs, c.isDigit) :
    readSigned (withMinus negative cs) = some (Text.withSign negative (Text.ofDigits cs)) := by
  have hread := readUnsigned_digits hne hcs
  obtain ⟨c, cs, rfl⟩ := List.exists_cons_of_ne_nil hne
  have hc := hcs c List.mem_cons_self
  cases negative with
  | true =>
    show readSigned ('-' :: c :: cs) = _
    unfold readSigned
    split
    · next h => cases h; cases hc
    · next h =>
      cases h
      rw [hread]
      rfl
    · next h => exact absurd rfl (h _)
  | false =>
    show readSigned (c :: cs) = _
    unfold readSigned
    split
    · next h => cases h; cases hc
    · next h => cases h; cases hc
    · rw [hread]
      rfl

/-- The point is taken out of a numeral. -/
theorem splitPoint_numeral (negative : Bool) {whole fraction : List Char}
    (hdigit : ∀ c ∈ whole ++ fraction, c.isDigit) :
    splitPoint (withMinus negative (numeral whole fraction)) =
      (withMinus negative (whole ++ fraction), fraction.length) := by
  rw [List.forall_mem_append] at hdigit
  have hwhole : ∀ c ∈ withMinus negative whole, (c != '.') = true := by
    intro c hc
    rcases mem_withMinus hc with rfl | hc
    · rfl
    · exact bne_iff_ne.2 (ne_of_isDigit (hdigit.1 c hc) rfl)
  unfold splitPoint
  rw [numeral, withMinus_append, withMinus_append]
  cases fraction with
  | nil =>
    rw [List.isEmpty_nil, if_pos rfl, Text.span_append hwhole (by simp), List.append_nil]
    rfl
  | cons c cs =>
    rw [List.isEmpty_cons, if_neg (by decide), Text.span_append hwhole (by simp)]
    show (_, ((c :: cs).filter (· != '_')).length) = _
    rw [filter_underscores hdigit.2]

/-- What may stand behind a numeral: nothing, or an exponent. -/
inductive ExponentPart : Int → List Char → Prop
  | none : ExponentPart 0 []
  | letter {letter : Char} (hletter : letter = 'e' ∨ letter = 'E') {e : Int}
      (hleast : -2 ^ (127 : Nat) ≤ e) (hgreatest : e ≤ 2 ^ (127 : Nat) - 1) :
      ExponentPart e (letter :: writeExponent e)

theorem ExponentPart.mem {e : Int} {tail : List Char} (h : ExponentPart e tail) {c : Char}
    (hc : c ∈ tail) : c.isDigit ∨ c ∈ ['.', '-', '+', 'e', 'E'] := by
  cases h with
  | none => cases hc
  | letter hletter =>
    rcases List.mem_cons.1 hc with rfl | hc
    · exact .inr (by rcases hletter with rfl | rfl <;> simp)
    · have hint {c : Char} (hc : c ∈ Text.writeInt e) :
          c.isDigit ∨ c ∈ ['.', '-', '+', 'e', 'E'] :=
        (Text.mem_writeInt hc).imp_right fun hc ↦ by simp [hc]
      unfold writeExponent at hc
      split at hc
      · rcases List.mem_cons.1 hc with rfl | hc
        · exact .inr (by simp)
        · exact hint hc
      · exact hint hc

theorem readInt_writeExponent {least greatest e : Int} (hleast : least ≤ 0)
    (hgreatest : 0 ≤ greatest) (hlow : least ≤ e) (hhigh : e ≤ greatest) :
    Text.readInt least greatest (writeExponent e) = .ok e := by
  have hread := Text.readInt_writeInt hleast hgreatest hlow hhigh
  unfold writeExponent
  split
  · next h =>
    obtain ⟨n, rfl⟩ := Int.eq_ofNat_of_zero_le h
    rw [← hread]
    show Text.readInt least greatest ('+' :: Text.digits n) =
      Text.readInt least greatest (Text.digits n)
    rw [Text.readInt_plus (Text.digits_ne_nil n),
      Text.readInt_digits (Text.digits_ne_nil n) fun c ↦ Text.isDigit_of_mem_digits]
  · exact hread

/-- The exponent is taken off a numeral. -/
theorem splitExponent_append {base tail : List Char} {e : Int}
    (hbase : ∀ c ∈ base, c ≠ 'e' ∧ c ≠ 'E') (htail : ExponentPart e tail) :
    splitExponent (base ++ tail) = some (base, e) := by
  have hletters : ∀ c ∈ base, (c != 'e' && c != 'E') = true := fun c hc ↦
    Bool.and_eq_true_iff.2 ((hbase c hc).imp bne_iff_ne.2 bne_iff_ne.2)
  unfold splitExponent
  cases htail with
  | none => rw [Text.span_append hletters (by simp)]
  | letter hletter hleast hgreatest =>
    have hread := readInt_writeExponent (by decide) (by decide) hleast hgreatest
    have hstop (c : Char) (h : c = 'e' ∨ c = 'E') : (c != 'e' && c != 'E') = false := by
      rcases h with rfl | rfl <;> rfl
    rw [Text.span_append hletters (by simpa using hstop _ hletter)]
    dsimp only
    rw [hread]

/-! ### Numerals -/

/-- Whether a decimal may have the scale. -/
def ScaleInRange (scale : Int) : Prop :=
  leastScale ≤ scale ∧ scale ≤ greatestScale

instance (scale : Int) : Decidable (ScaleInRange scale) :=
  inferInstanceAs (Decidable (_ ∧ _))

theorem ScaleInRange.bounds {scale : Int} (h : ScaleInRange scale) :
    -2 ^ (63 : Nat) ≤ scale ∧ scale ≤ 2 ^ (63 : Nat) - 1 :=
  h

/-- The parts of a text that is read as a decimal without a sign. -/
structure Numeral where
  whole : List Char
  fraction : List Char
  exponent : Int
  tail : List Char
  whole_ne_nil : whole ≠ []
  isDigit : ∀ c ∈ whole ++ fraction, c.isDigit
  exponentPart : ExponentPart exponent tail
  scaleInRange : ScaleInRange (fraction.length - exponent)

namespace Numeral

/-- The text of the parts. -/
def text (x : Numeral) : List Char :=
  numeral x.whole x.fraction ++ x.tail

/-- The decimal that is read, with a sign. -/
def decimal (negative : Bool) (x : Numeral) : Decimal :=
  ⟨Text.withSign negative (Text.ofDigits (x.whole ++ x.fraction)), x.fraction.length - x.exponent⟩

/-- The rational number of the text. -/
def value (x : Numeral) : ℚ :=
  Text.ofDigits (x.whole ++ x.fraction) * 10 ^ (x.exponent - x.fraction.length)

theorem value_decimal (negative : Bool) (x : Numeral) :
    (x.decimal negative).value = if negative then -x.value else x.value := by
  cases negative <;> simp [decimal, value, Decimal.value, Text.withSign]

/-- What is read from the text. -/
theorem read_text (negative : Bool) (x : Numeral) :
    read (withMinus negative x.text) = some (x.decimal negative) := by
  have hbase : ∀ c ∈ withMinus negative (numeral x.whole x.fraction), c ≠ 'e' ∧ c ≠ 'E' := by
    intro c hc
    rcases mem_withMinus hc with rfl | hc
    · decide
    · rcases mem_numeral x.isDigit hc with hc | rfl
      · exact ⟨ne_of_isDigit hc rfl, ne_of_isDigit hc rfl⟩
      · decide
  have hne : x.whole ++ x.fraction ≠ [] := by simp [x.whole_ne_nil]
  rw [text, withMinus_append, read, splitExponent_append hbase x.exponentPart]
  dsimp only [bind, Option.bind]
  rw [splitPoint_numeral negative x.isDigit, readSigned_withMinus negative hne x.isDigit]
  exact if_pos x.scaleInRange

end Numeral

/-! ### Writing -/

variable {scale : Int}

/-- Digits with an exponent. -/
theorem exists_numeral_exponent (n : Nat) (h : ScaleInRange scale) :
    ∃ x : Numeral, Text.digits n ++ 'e' :: writeExponent (-scale) = x.text ∧
      x.value = n * 10 ^ (-scale) := by
  obtain ⟨hlow, hhigh⟩ := h.bounds
  let x : Numeral :=
    { whole := Text.digits n
      fraction := []
      exponent := -scale
      tail := 'e' :: writeExponent (-scale)
      whole_ne_nil := Text.digits_ne_nil n
      isDigit := by simpa using fun c ↦ Text.isDigit_of_mem_digits
      exponentPart := .letter (.inl rfl) (by omega) (by omega)
      scaleInRange := by simpa using h }
  exact ⟨x, by simp [x, Numeral.text, numeral], by simp [x, Numeral.value]⟩

/-- Digits with a point behind the first one and an exponent. -/
theorem exists_numeral_scientific (n : Nat) (h : ScaleInRange scale)
    (hlong : (Text.digits n).length ≤ scale) :
    ∃ x : Numeral, writeScientific (Text.digits n) scale = x.text ∧
      x.value = n * 10 ^ (-scale) := by
  obtain ⟨-, hhigh⟩ := h.bounds
  have hpos : 0 < (Text.digits n).length := List.length_pos_iff.2 (Text.digits_ne_nil n)
  have hplaces : (((Text.digits n).drop 1).length : ℤ) - ((Text.digits n).length - 1 - scale) =
      scale := by
    rw [List.length_drop]
    omega
  let x : Numeral :=
    { whole := (Text.digits n).take 1
      fraction := (Text.digits n).drop 1
      exponent := (Text.digits n).length - 1 - scale
      tail := 'E' :: writeExponent ((Text.digits n).length - 1 - scale)
      whole_ne_nil := by simp [Text.digits_ne_nil]
      isDigit := by
        rw [List.take_append_drop]
        exact fun c ↦ Text.isDigit_of_mem_digits
      exponentPart := .letter (.inr rfl) (by omega) (by omega)
      scaleInRange := by rwa [hplaces] }
  refine ⟨x, ?_, ?_⟩
  · simp only [x, Numeral.text, numeral, writeScientific, List.isEmpty_iff, List.drop_eq_nil_iff]
  · rw [Numeral.value, List.take_append_drop, Text.ofDigits_digits, ← neg_sub, hplaces]

/-- Without an exponent the digits are those of a number with its point at the scale. -/
theorem writePlain_eq_positional {ds : List Char} (hds : ds ≠ []) (scale : Int) :
    writePlain ds scale = DecimalDigits.positional false ⟨ds, ds.length - scale⟩ := by
  have hpos : 0 < ds.length := List.length_pos_iff.2 hds
  rw [writePlain, DecimalDigits.positional]
  dsimp only
  rcases le_or_gt scale 0 with hscale | hscale
  · rw [if_pos hscale, if_neg (by omega), if_pos (by omega), if_neg (by decide), List.append_nil,
      show (ds.length - scale).toNat - ds.length = (-scale).toNat by omega]
  · rw [if_neg (not_le.2 hscale)]
    rcases le_or_gt ds.length scale.toNat with hlong | hlong
    · rw [if_pos hlong, if_pos (by omega),
        show (-(ds.length - scale)).toNat = scale.toNat - ds.length by omega]
    · rw [if_neg (not_le.2 hlong), if_neg (by omega), if_neg (by omega),
        show (ds.length - scale).toNat = ds.length - scale.toNat by omega]

/-- Digits with the point at the scale, which has to leave as many places as a scale may have. -/
theorem exists_numeral_of_splitsInto {n : Nat} {whole fraction : List Char}
    (hrange : ScaleInRange fraction.length)
    (hsplit : DecimalDigits.SplitsInto false ⟨Text.digits n, (Text.digits n).length - scale⟩
      whole fraction) :
    ∃ x : Numeral, writePlain (Text.digits n) scale = x.text ∧ x.value = n * 10 ^ (-scale) := by
  let x : Numeral :=
    { whole := whole
      fraction := fraction
      exponent := 0
      tail := []
      whole_ne_nil := hsplit.ne_nil
      isDigit := hsplit.isDigit
      exponentPart := .none
      scaleInRange := by rwa [sub_zero] }
  refine ⟨x, ?_, ?_⟩
  · rw [writePlain_eq_positional (Text.digits_ne_nil n), hsplit.text, Numeral.text,
      List.append_nil]
  · have hvalue := hsplit.value
    dsimp only at hvalue
    rw [Text.ofDigits_digits, sub_sub_cancel_left] at hvalue
    rw [Numeral.value, zero_sub, hvalue]

/-- Digits without an exponent. -/
theorem exists_numeral_plain (n : Nat) (h : ScaleInRange scale) :
    ∃ x : Numeral, writePlain (Text.digits n) scale = x.text ∧ x.value = n * 10 ^ (-scale) := by
  have hne := Text.digits_ne_nil n
  have hdigit : ∀ c ∈ Text.digits n, c.isDigit := fun c ↦ Text.isDigit_of_mem_digits
  -- The places behind the point are as many as the scale says, or none.
  rcases le_or_gt ((Text.digits n).length - scale) 0 with hp | hp
  · refine exists_numeral_of_splitsInto ?_ (DecimalDigits.splitsInto_of_nonpos hne hdigit hp)
    rw [List.length_append, List.length_replicate]
    convert h using 1
    dsimp only
    omega
  · rcases le_or_gt (Text.digits n).length ((Text.digits n).length - scale).toNat with hle | hlt
    · exact exists_numeral_of_splitsInto (by decide)
        (DecimalDigits.splitsInto_of_length_le hne hdigit hp hle)
    · refine exists_numeral_of_splitsInto ?_ (DecimalDigits.splitsInto_of_lt_length hdigit hp hlt)
      rw [List.length_drop]
      convert h using 1
      dsimp only
      omega

/-- An absolute value is written as a numeral of the same value. -/
theorem exists_numeral (n : Nat) (h : ScaleInRange scale) :
    ∃ x : Numeral, writeAbs n scale = x.text ∧ x.value = n * 10 ^ (-scale) := by
  rw [writeAbs]
  dsimp only
  split
  · exact exists_numeral_exponent n h
  · -- A zero is the same number at every scale.
    obtain ⟨hrange, hvalue⟩ : ScaleInRange (if n = 0 then 0 else scale) ∧
        (n : ℚ) * 10 ^ (-(if n = 0 then 0 else scale)) = n * 10 ^ (-scale) := by
      split
      · next hn => exact ⟨by decide, by simp [hn]⟩
      · exact ⟨h, rfl⟩
    rw [← hvalue]
    generalize (if n = 0 then 0 else scale) = scale at hrange
    split
    · next hlong =>
      have hzeros : 5 < scale - (Text.digits n).length := hlong
      exact exists_numeral_scientific n hrange (by omega)
    · split
      · exact exists_numeral_exponent n hrange
      · exact exists_numeral_plain n hrange

/-- A decimal is written as a numeral, with a minus in front if it is negative. -/
theorem exists_write_eq {d : Decimal} (h : ScaleInRange d.scale) :
    ∃ x : Numeral, d.write = withMinus (d.units < 0) x.text ∧ x.value = |d.value| := by
  obtain ⟨x, htext, hvalue⟩ := exists_numeral d.units.natAbs h
  refine ⟨x, ?_, by rw [hvalue, abs_value]⟩
  rw [← htext, write, withMinus]
  simp

/-- A decimal is read back from its text as a decimal of the same value. -/
theorem exists_read_write {d : Decimal} (h : ScaleInRange d.scale) :
    ∃ u, read d.write = some u ∧ u.value = d.value := by
  obtain ⟨x, hwrite, hvalue⟩ := exists_write_eq h
  refine ⟨x.decimal (d.units < 0), by rw [hwrite, x.read_text], ?_⟩
  rw [x.value_decimal, hvalue]
  split
  · next hneg => rw [abs_of_neg (value_neg_iff.2 (of_decide_eq_true hneg)), neg_neg]
  · next hneg =>
    rw [abs_of_nonneg (not_lt.1 (mt value_neg_iff.1 fun h ↦ hneg (decide_eq_true h)))]

/-- A decimal is written with digits, a point, signs and the letter of an exponent. -/
theorem mem_write {d : Decimal} (h : ScaleInRange d.scale) {c : Char} (hc : c ∈ d.write) :
    c.isDigit ∨ c ∈ ['.', '-', '+', 'e', 'E'] := by
  obtain ⟨x, hwrite, -⟩ := exists_write_eq h
  rw [hwrite] at hc
  rcases mem_withMinus hc with rfl | hc
  · exact .inr (by simp)
  · rcases List.mem_append.1 hc with hc | hc
    · exact (mem_numeral x.isDigit hc).imp_right fun hc ↦ by simp [hc]
    · exact x.exponentPart.mem hc

end Decimal

end ConstraintSearch

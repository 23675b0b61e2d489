import ConstraintSearch.BinaryFloat.Text
import ConstraintSearch.Proofs.BinaryFloat.Rounding
import ConstraintSearch.Proofs.Text.Numeral

/-!
# Decimal numbers as floating-point numbers

The magnitude that a decimal number `c * 10 ^ x` is rounded to depends on the number alone and
not on how it is written. The shortest digits of a magnitude are such a number that is rounded
back to it, which holds of the digits found by search because it has been tested, and of the
exact expansion because it is exact. The shortcut for numbers that are far out of range gives
what rounding would give.
-/

namespace ConstraintSearch.Magnitude

variable {w : Width}

/-! ### Decimal numbers -/

/-- Rounding a decimal number is rounding a ratio with its value. -/
theorem exists_ratio (w : Width) (c : Nat) (x : Int) :
    ∃ n d : Nat, 0 < d ∧ (n : ℚ) / d = c * 10 ^ x ∧ ofDecimal? w c x = round? w n d 0 := by
  rcases lt_or_ge x 0 with hx | hx
  · obtain ⟨k, hk⟩ := Int.eq_ofNat_of_zero_le (show 0 ≤ -x by omega)
    obtain rfl : x = -(k : ℤ) := by omega
    refine ⟨c, 10 ^ k, by positivity, ?_, ?_⟩
    · rw [zpow_neg, zpow_natCast, Nat.cast_pow, Nat.cast_ofNat, div_eq_mul_inv]
    · rw [ofDecimal?, if_neg (not_le.2 hx), neg_neg, Int.toNat_natCast]
  · obtain ⟨k, rfl⟩ := Int.eq_ofNat_of_zero_le hx
    refine ⟨c * 10 ^ k, 1, one_pos, ?_, ?_⟩
    · push_cast
      rw [zpow_natCast, div_one]
    · rw [ofDecimal?, if_pos hx, Int.toNat_natCast]

/-- Equal decimal numbers are rounded to the same magnitude. -/
theorem ofDecimal?_congr {c c' : Nat} {x x' : Int} (h : (c : ℚ) * 10 ^ x = c' * 10 ^ x') :
    ofDecimal? w c x = ofDecimal? w c' x' := by
  obtain ⟨n, d, hd, hq, hr⟩ := exists_ratio w c x
  obtain ⟨n', d', hd', hq', hr'⟩ := exists_ratio w c' x'
  rw [hr, hr']
  exact round?_congr_value hd hd' (by rw [hq, hq', h])

/-- A decimal number that is a magnitude is rounded to it. -/
theorem ofDecimal?_of_value_eq {c : Nat} {x : Int} {m : Magnitude w}
    (h : (c : ℚ) * 10 ^ x = m.value) : ofDecimal? w c x = some m := by
  obtain ⟨n, d, hd, hq, hr⟩ := exists_ratio w c x
  rw [hr]
  exact round?_of_value_eq hd (by rw [zpow_zero, mul_one, hq, h])

/-! ### Shortest digits -/

/-- The exact expansion of a magnitude is rounded to it. -/
theorem exactDecimal_spec (m : Magnitude w) :
    ofDecimal? w m.exactDecimal.1 m.exactDecimal.2 = some m := by
  refine ofDecimal?_of_value_eq ?_
  unfold exactDecimal value
  split
  · next h =>
    obtain ⟨k, hk⟩ := Nat.exists_eq_add_of_le h
    rw [hk, Nat.add_sub_cancel_left, Nat.shiftLeft_eq]
    push_cast
    rw [add_sub_cancel_left, zpow_natCast, mul_one]
  · next h =>
    obtain ⟨k, hk⟩ := Nat.exists_eq_add_of_le (Nat.le_of_not_le h)
    rw [hk, Nat.add_sub_cancel_left]
    push_cast
    rw [sub_add_cancel_left, zpow_neg, zpow_neg, zpow_natCast, zpow_natCast,
      show (10 : ℚ) = 2 * 5 by norm_num, mul_pow]
    field_simp

/-- A neighbour on a decimal grid is only taken if it is rounded to the magnitude. -/
theorem neighbour?_spec {m : Magnitude w} {digits c : Nat} {x : Int}
    (h : m.neighbour? digits = some (c, x)) : ofDecimal? w c x = some m := by
  unfold neighbour? at h
  dsimp -zeta only at h
  extract_lets y num den below readsBack at h
  have hfound {b : Nat} (hb : readsBack b) (h : some (b, y) = some (c, x)) :
      ofDecimal? w c x = some m := by
    rw [Option.some.injEq, Prod.mk.injEq] at h
    rw [← h.1, ← h.2]
    exact eq_of_beq hb
  split at h
  · next hbelow =>
    split at h
    · next habove => exact hfound (Bool.and_eq_true_iff.1 habove).2 h
    · exact hfound hbelow h
  · split at h
    · next habove => exact hfound habove h
    · cases h

/-- The shortest decimal number of a magnitude is rounded to it. -/
theorem shortestDecimal_spec (m : Magnitude w) :
    ofDecimal? w m.shortestDecimal.1 m.shortestDecimal.2 = some m := by
  unfold shortestDecimal
  rcases hf : (List.range w.roundTripDigits).findSome? fun i ↦ m.neighbour? (i + 1) with - | ⟨c, x⟩
  · exact exactDecimal_spec m
  · obtain ⟨i, -, hi⟩ := List.exists_of_findSome?_eq_some hf
    exact neighbour?_spec hi

/-- Decimal digits that stand for a magnitude: at least one, and what they say is rounded to
it. -/
structure Spells (m : Magnitude w) (d : DecimalDigits) : Prop where
  ne_nil : d.digits ≠ []
  isDigit : ∀ c ∈ d.digits, c.isDigit
  rounds : ofDecimal? w (Text.ofDigits d.digits) (d.point - d.digits.length) = some m

/-- Zero is a magnitude, at whatever exponent it is written. -/
theorem ofDecimal?_zero (x : Int) : ofDecimal? w 0 x = some (zero w) := by
  unfold ofDecimal?
  split <;> simp [round?]

/-- The shortest digits of a magnitude stand for it. -/
theorem spells_shortestDigits (m : Magnitude w) : m.Spells m.shortestDigits := by
  rw [shortestDigits]
  split
  · next hzero =>
    obtain rfl : m = zero w := eq_zero_of_significand (eq_of_beq hzero)
    exact ⟨List.cons_ne_nil _ _, List.forall_mem_singleton.2 rfl, ofDecimal?_zero _⟩
  · next hzero =>
    have hspec := m.shortestDecimal_spec
    generalize m.shortestDecimal = r at hspec ⊢
    obtain ⟨c, x⟩ := r
    dsimp only at hspec ⊢
    change m.Spells ⟨(Text.digits c).rdropWhile (· == '0'), x + (Text.digits c).length⟩
    obtain ⟨k, hsplit⟩ := Text.exists_rdropWhile_append c
    generalize (Text.digits c).rdropWhile (· == '0') = kept at hsplit ⊢
    have hvalue : c = Text.ofDigits kept * 10 ^ k := by
      rw [← Text.ofDigits_digits c, ← hsplit, Text.ofDigits_append, Text.ofDigits_replicate_zero,
        List.length_replicate, Nat.add_zero]
    refine ⟨?_, ?_, ?_⟩
    · -- If only zeros had been there, the magnitude would be zero.
      rintro rfl
      have hc : c = 0 := by simpa [Text.ofDigits] using hvalue
      rw [hc, ofDecimal?_zero, Option.some.injEq] at hspec
      exact hzero (hspec ▸ rfl)
    · intro b hb
      refine Text.isDigit_of_mem_digits (n := c) ?_
      rw [← hsplit]
      exact List.mem_append_left _ hb
    · -- The point makes up for the zeros that are left out.
      rw [← hspec]
      refine ofDecimal?_congr ?_
      rw [← hsplit, List.length_append, List.length_replicate, hvalue]
      push_cast
      rw [show x + (kept.length + k) - kept.length = k + x by ring, zpow_add₀ (by norm_num),
        zpow_natCast, mul_assoc]

/-! ### Out of range -/

/-- The range of both widths lies within `2 ^ 1200`, which is no more than `10 ^ 400`. -/
private theorem range_bounds (w : Width) :
    w.topExponent + w.precision ≤ w.unitExponent + 1200 ∧ w.unitExponent + 1 ≤ 1200 := by
  cases w <;> decide

private theorem two_pow_le_ten_pow : (2 : ℚ) ^ 1200 ≤ 10 ^ 400 := by
  rw [show 1200 = 3 * 400 by rfl, pow_mul]
  gcongr
  norm_num

/-- A number of more than four hundred digits before the point is beyond the greatest
magnitude. -/
theorem ofDecimal?_eq_none {c : Nat} {x : Int} (hc : 0 < c)
    (h : 400 < x + Text.digitCount c) : ofDecimal? w c x = none := by
  obtain ⟨n, d, hd, hq, hr⟩ := exists_ratio w c x
  have hdigits : (10 : ℚ) ^ (Text.digitCount c - 1) ≤ c := by
    exact_mod_cast Text.pow_digitCount_le hc
  have hpos : 0 < Text.digitCount c := Nat.length_toDigits_pos
  rw [hr]
  refine round?_eq_none hd ?_
  -- The first digit is not zero, so the number is at least a power of ten.
  calc ((2 : ℕ) : ℚ) ^ ((w.topExponent : ℤ) + w.precision - w.unitExponent)
      ≤ 2 ^ (1200 : ℤ) := by
        refine zpow_le_zpow_right₀ one_le_two ?_
        have := (range_bounds w).1
        omega
    _ ≤ 10 ^ (400 : ℤ) := two_pow_le_ten_pow
    _ ≤ 10 ^ (((Text.digitCount c - 1 : ℕ) : ℤ) + x) := by
        refine zpow_le_zpow_right₀ (by norm_num) ?_
        omega
    _ = 10 ^ (Text.digitCount c - 1) * 10 ^ x := by
        rw [zpow_add₀ (by norm_num), zpow_natCast]
    _ ≤ c * 10 ^ x := by gcongr
    _ = n / d := hq.symm

/-- A number with more than four hundred zeros behind the point is below half a unit. -/
theorem ofDecimal?_eq_zero {c : Nat} {x : Int} (h : x + Text.digitCount c < -400) :
    ofDecimal? w c x = some (zero w) := by
  obtain ⟨n, d, hd, hq, hr⟩ := exists_ratio w c x
  have hd' : (0 : ℚ) < d := by exact_mod_cast hd
  have hdigits : (c : ℚ) < 10 ^ Text.digitCount c := by exact_mod_cast Text.lt_pow_digitCount c
  have hlt : (n : ℚ) / d < 10 ^ (-400 : ℤ) := by
    calc (n : ℚ) / d = c * 10 ^ x := hq
      _ < 10 ^ Text.digitCount c * 10 ^ x := by gcongr
      _ = 10 ^ ((Text.digitCount c : ℤ) + x) := by rw [zpow_add₀ (by norm_num), zpow_natCast]
      _ ≤ 10 ^ (-400 : ℤ) := by
        refine zpow_le_zpow_right₀ (by norm_num) ?_
        omega
  have hunit : (2 : ℚ) ^ (w.unitExponent + 1) ≤ 10 ^ 400 :=
    le_trans (pow_le_pow_right₀ one_le_two (range_bounds w).2) two_pow_le_ten_pow
  rw [hr]
  refine round?_eq_zero ?_
  have hscaled : (2 * n * 2 ^ w.unitExponent : ℚ) < d := by
    calc (2 * n * 2 ^ w.unitExponent : ℚ) = n / d * 2 ^ (w.unitExponent + 1) * d := by
          field_simp
          ring
      _ ≤ n / d * 10 ^ 400 * d := by gcongr
      _ < 10 ^ (-400 : ℤ) * 10 ^ 400 * d := by gcongr
      _ = d := by rw [zpow_neg, zpow_ofNat, inv_mul_cancel₀ (by positivity), one_mul]
  exact_mod_cast hscaled

end ConstraintSearch.Magnitude

namespace ConstraintSearch.BinaryFloat

/-- The shortcuts for numbers that are out of range give what rounding gives. -/
theorem ofDecimal_eq (w : Width) (negative : Bool) (c : Nat) (x : Int) :
    ofDecimal w negative c x =
      match Magnitude.ofDecimal? w c x with
      | some m => .finite negative m
      | none => .infinite negative := by
  unfold ofDecimal
  dsimp only
  split
  · next hc => rw [hc, Magnitude.ofDecimal?_zero]
  · next hc =>
    split
    · next hlarge => rw [Magnitude.ofDecimal?_eq_none (Nat.pos_of_ne_zero hc) hlarge]
    · split
      · next hsmall => rw [Magnitude.ofDecimal?_eq_zero hsmall]
      · rfl

end ConstraintSearch.BinaryFloat

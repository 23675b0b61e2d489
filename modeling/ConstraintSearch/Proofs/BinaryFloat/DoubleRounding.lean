import ConstraintSearch.BinaryFloat.Conversion
import ConstraintSearch.Proofs.BinaryFloat.Rounding

/-!
# Rounding twice

A whole number that is rounded to a narrow float by way of a wide one is rounded twice, and the
result is not always the nearest narrow float. It is another one exactly if the wide float is not
the number itself but lies halfway between two narrow floats, and the tie is then broken away from
the number (`DoublyRounded`). Everything is said of natural numbers: `nearest w n` is the natural
number nearest to `n` that the precision of a width can hold.
-/

namespace ConstraintSearch

/-! ### Nearest quotients -/

/-- A quotient is rounded to the natural number nearest to it, and to the even one of two that are
equally near. -/
theorem roundQuotient_eq_iff {n d q : Nat} (hd : 0 < d) :
    roundQuotient n d = q ↔
      2 * (q * d) ≤ 2 * n + d ∧ 2 * n ≤ 2 * (q * d) + d ∧
        (2 * n + d = 2 * (q * d) ∨ 2 * n = 2 * (q * d) + d → q % 2 = 0) := by
  have hn : n / d * d + n % d = n := Nat.div_add_mod' n d
  have hr : n % d < d := Nat.mod_lt n hd
  have hsucc : (n / d + 1) * d = n / d * d + d := Nat.succ_mul _ _
  constructor
  · rintro rfl
    unfold roundQuotient
    dsimp only
    split_ifs <;> omega
  · rintro ⟨hlow, hhigh, htie⟩
    -- Only the two natural numbers around the quotient can be nearest.
    have hle : n / d ≤ q := by
      by_contra hlt
      have := Nat.mul_le_mul_right d (show q + 1 ≤ n / d by omega)
      rw [Nat.succ_mul] at this
      omega
    have hge : q ≤ n / d + 1 := by
      by_contra hlt
      have := Nat.mul_le_mul_right d (show n / d + 1 + 1 ≤ q by omega)
      rw [Nat.succ_mul, hsucc] at this
      omega
    unfold roundQuotient
    dsimp only
    obtain rfl | rfl : q = n / d ∨ q = n / d + 1 := by omega
    · split_ifs <;> omega
    · rw [hsucc] at hlow hhigh htie
      split_ifs <;> omega

theorem roundQuotient_one (n : Nat) : roundQuotient n 1 = n := by
  have hround := roundQuotient_mul_self n one_pos
  rwa [Nat.mul_one] at hround

theorem le_roundQuotient {n d q : Nat} (hd : 0 < d) (h : q * d ≤ n) : q ≤ roundQuotient n d := by
  obtain ⟨-, hhigh, htie⟩ := (roundQuotient_eq_iff (n := n) hd).1 rfl
  by_contra hlt
  have := Nat.mul_le_mul_right d (show roundQuotient n d + 1 ≤ q by omega)
  rw [Nat.succ_mul] at this
  omega

theorem roundQuotient_le {n d q : Nat} (hd : 0 < d) (h : n ≤ q * d) : roundQuotient n d ≤ q := by
  obtain ⟨hlow, -, htie⟩ := (roundQuotient_eq_iff (n := n) hd).1 rfl
  by_contra hlt
  have := Nat.mul_le_mul_right d (show q + 1 ≤ roundQuotient n d by omega)
  rw [Nat.succ_mul] at this
  omega

/-- The quotient of `n` by `a`, rounded, lies halfway between two multiples of `c`; it is not exact,
and the tie is broken away from `n`. -/
def TieLost (n a c : Nat) : Prop :=
  let m := roundQuotient n a
  2 * (m % c) = c ∧ (m * a < n ∧ m / c % 2 = 0 ∨ n < m * a ∧ m / c % 2 = 1)

instance (n a c : Nat) : Decidable (TieLost n a c) :=
  inferInstanceAs (Decidable (_ ∧ _))

/-- What is left of a division says how the quotient is rounded. -/
theorem roundQuotient_cases (m c : Nat) :
    2 * (m % c) < c ∧ roundQuotient m c = m / c ∨
      c < 2 * (m % c) ∧ roundQuotient m c = m / c + 1 ∨
        2 * (m % c) = c ∧ roundQuotient m c = if m / c % 2 = 0 then m / c else m / c + 1 := by
  unfold roundQuotient
  dsimp only
  split_ifs <;> omega

/-- A rounded quotient that is divided by an even number and rounded again is the rounded quotient
by the product, unless a tie is lost. -/
theorem roundQuotient_roundQuotient_iff {n a h : Nat} (ha : 0 < a) (hh : 0 < h) :
    roundQuotient (roundQuotient n a) (2 * h) = roundQuotient n (a * (2 * h)) ↔
      ¬ TieLost n a (2 * h) := by
  obtain ⟨hlow, hhigh, -⟩ := (roundQuotient_eq_iff (n := n) ha).1 rfl
  simp only [TieLost]
  generalize roundQuotient n a = m at hlow hhigh ⊢
  have hm : m / (2 * h) * (2 * h) + m % (2 * h) = m := Nat.div_add_mod' m (2 * h)
  have hlt : m % (2 * h) < 2 * h := Nat.mod_lt m (by omega)
  have hcases := roundQuotient_cases m (2 * h)
  generalize m / (2 * h) = p, m % (2 * h) = r at hm hlt hcases ⊢
  rw [eq_comm, roundQuotient_eq_iff (by positivity)]
  -- Both divisors are multiples of `a`, so what is known of `m` is wanted of `m * a`.
  have hmul {x y : Nat} (hxy : x ≤ y) : x * a ≤ y * a := Nat.mul_le_mul_right a hxy
  have hprod : a * (2 * h) = 2 * (h * a) := by ring
  have hp : p * (a * (2 * h)) = p * (2 * h) * a := by ring
  have hsucc : (p + 1) * (a * (2 * h)) = p * (2 * h) * a + 2 * (h * a) := by ring
  rcases hcases with ⟨hr, hq⟩ | ⟨hr, hq⟩ | ⟨hr, hq⟩
  · have hle := hmul (show p * (2 * h) ≤ m by omega)
    have hge := hmul (show m + 1 ≤ p * (2 * h) + h by omega)
    rw [Nat.add_mul, Nat.add_mul] at hge
    rw [hq, hp, hprod]
    omega
  · have hle := hmul (show p * (2 * h) + h + 1 ≤ m by omega)
    have hge := hmul (show m ≤ p * (2 * h) + 2 * h by omega)
    rw [Nat.add_mul, Nat.add_mul] at hle
    rw [Nat.add_mul, Nat.mul_assoc 2] at hge
    rw [hq, hsucc, hprod]
    omega
  · have hmid : (p * (2 * h) + h) * a = m * a := by rw [show p * (2 * h) + h = m by omega]
    have hle : a ≤ h * a := Nat.le_mul_of_pos_left a hh
    rw [Nat.add_mul] at hmid
    rw [hq]
    split_ifs
    · rw [hp, hprod]
      omega
    · rw [hsucc, hprod]
      omega

/-! ### Nearest numbers of a precision -/

/-- The natural number nearest to `n` with a significand that fits the precision, which is counted
in units of the power of two that the last bit of the significand stands for. -/
def nearest (w : Width) (n : Nat) : Nat :=
  let unit := 2 ^ (n.log2 - (w.precision - 1))
  roundQuotient n unit * unit

variable {w : Width} {n : Nat}

/-- A number that fits the precision is not rounded. -/
theorem nearest_of_lt (h : n.log2 ≤ w.precision - 1) : nearest w n = n := by
  rw [nearest, Nat.sub_eq_zero_of_le h, pow_zero, Nat.mul_one, roundQuotient_one]

/-- The significand of the nearest number has as many bits as the precision, or is the next power
of two. -/
theorem significand_bounds (hn : n ≠ 0) (h : w.precision - 1 ≤ n.log2) :
    2 ^ (w.precision - 1) ≤ roundQuotient n (2 ^ (n.log2 - (w.precision - 1))) ∧
      roundQuotient n (2 ^ (n.log2 - (w.precision - 1))) ≤ 2 ^ w.precision := by
  have hp := w.precision_pos
  have hunit : 0 < 2 ^ (n.log2 - (w.precision - 1)) := by positivity
  constructor
  · refine le_roundQuotient hunit ?_
    rw [← pow_add, show w.precision - 1 + (n.log2 - (w.precision - 1)) = n.log2 by omega]
    exact Nat.log2_self_le hn
  · refine roundQuotient_le hunit ?_
    rw [← pow_add, show w.precision + (n.log2 - (w.precision - 1)) = n.log2 + 1 by omega]
    exact Nat.lt_log2_self.le

theorem nearest_le (hn : n ≠ 0) : nearest w n ≤ 2 ^ (n.log2 + 1) := by
  rcases Nat.le_total n.log2 (w.precision - 1) with h | h
  · rw [nearest_of_lt h]
    exact Nat.lt_log2_self.le
  · have hp := w.precision_pos
    refine (Nat.mul_le_mul_right _ (significand_bounds hn h).2).trans_eq ?_
    rw [← pow_add, show w.precision + (n.log2 - (w.precision - 1)) = n.log2 + 1 by omega]

/-- The nearest number has as many bits as the number, unless it is the next power of two. -/
theorem log2_nearest (hn : n ≠ 0) (h : w.precision - 1 ≤ n.log2)
    (hlt : roundQuotient n (2 ^ (n.log2 - (w.precision - 1))) < 2 ^ w.precision) :
    (nearest w n).log2 = n.log2 := by
  have hp := w.precision_pos
  have hunit : 0 < 2 ^ (n.log2 - (w.precision - 1)) := by positivity
  have hlow : 2 ^ n.log2 ≤ nearest w n := by
    calc 2 ^ n.log2 = 2 ^ (w.precision - 1) * 2 ^ (n.log2 - (w.precision - 1)) := by
          rw [← pow_add, Nat.add_sub_cancel' h]
      _ ≤ nearest w n := Nat.mul_le_mul_right _ (significand_bounds hn h).1
  have hhigh : nearest w n < 2 ^ (n.log2 + 1) := by
    calc nearest w n < 2 ^ w.precision * 2 ^ (n.log2 - (w.precision - 1)) :=
          Nat.mul_lt_mul_of_pos_right hlt hunit
      _ = 2 ^ (n.log2 + 1) := by
          rw [← pow_add, show w.precision + (n.log2 - (w.precision - 1)) = n.log2 + 1 by omega]
  exact (Nat.log2_eq_iff (by have := Nat.two_pow_pos n.log2; omega)).2 ⟨hlow, hhigh⟩

namespace Magnitude

/-- Magnitudes of one value are the same. -/
theorem value_injective {m m' : Magnitude w} (h : m.value = m'.value) : m = m' := by
  have hround := round?_of_value_eq (n := m.significand) (d := 1)
    (k := (m.exponent : ℤ) - w.unitExponent) (m := m) one_pos (by simp [value])
  rw [round?_of_value_eq (m := m') one_pos (by rw [← h]; simp [value])] at hround
  exact (Option.some.inj hround).symm

/-- A significand in normal form makes a magnitude. -/
theorem exists_ofParts? {q e : Nat} (hq : q < 2 ^ w.precision) (hnormal : 2 ^ (w.precision - 1) ≤ q)
    (he : e ≤ w.topExponent) :
    ∃ m : Magnitude w, ofParts? w q e = some m ∧ m.value = q * 2 ^ ((e : ℤ) - w.unitExponent) :=
  ⟨⟨q, e, hq, .inr hnormal, he⟩, dif_pos ⟨hq, .inr hnormal, he⟩, rfl⟩

/-- A significand that has been rounded up to the next power of two is halved, and the magnitude
is the same number. -/
theorem exists_carry {q e : Nat} (hlow : 2 ^ (w.precision - 1) ≤ q) (hhigh : q ≤ 2 ^ w.precision)
    (he : e + 1 ≤ w.topExponent) :
    ∃ m : Magnitude w, (if q = 2 ^ w.precision then ofParts? w (2 ^ (w.precision - 1)) (e + 1)
        else ofParts? w q e) = some m ∧ m.value = q * 2 ^ ((e : ℤ) - w.unitExponent) := by
  have hp := w.precision_pos
  split
  · next hq =>
    obtain ⟨m, hm, hvalue⟩ := exists_ofParts? (Nat.pow_lt_pow_right one_lt_two (by omega)) le_rfl he
    refine ⟨m, hm, ?_⟩
    rw [hvalue, hq]
    push_cast
    rw [← zpow_natCast, ← zpow_natCast, ← zpow_add₀ two_ne_zero, ← zpow_add₀ two_ne_zero]
    congr 1
    omega
  · next hq => exact exists_ofParts? (lt_of_le_of_ne hhigh hq) hlow (by omega)

/-- The exponent that rounding finds for a natural number, in units. -/
private theorem exponent_natCast (hn : 0 < n) :
    (ratioLog2 n 1 + 0 + w.unitExponent - (w.precision - 1)).toNat =
      n.log2 + w.unitExponent - (w.precision - 1) := by
  have hp := w.precision_pos
  have hlog : ratioLog2 n 1 = n.log2 := by
    rw [ratioLog2_eq_log hn one_pos, Nat.cast_one, div_one, Int.log_natCast, Nat.log2_eq_log_two]
  rw [hlog]
  omega

/-- A natural number that is not out of range is rounded to the nearest one. -/
theorem exists_round?_natCast
    (h : n.log2 + w.unitExponent + 1 ≤ w.topExponent + (w.precision - 1)) :
    ∃ m : Magnitude w, round? w n 1 0 = some m ∧ m.value = nearest w n := by
  have hp := w.precision_pos
  rcases Nat.eq_zero_or_pos n with rfl | hn
  · exact ⟨zero w, by rw [round?, if_pos rfl], by simp [value, zero, nearest, roundQuotient]⟩
  rcases Nat.le_total n.log2 (w.precision - 1) with hlog | hlog
  · have hunit : w.precision ≤ w.unitExponent := by cases w <;> decide
    have htop : w.unitExponent ≤ w.topExponent := by cases w <;> decide
    obtain ⟨m, hm⟩ := exists_value_eq (w := w) (k := 0) hn.ne' hlog (by omega) (by omega)
    rw [zpow_zero, mul_one] at hm
    exact ⟨m, round?_of_value_eq one_pos (by simp [hm]), by rw [hm, nearest_of_lt hlog]⟩
  · obtain ⟨a, b, hb, hab, hsig⟩ := exists_roundQuotient_shift n one_pos
      (0 + w.unitExponent - (n.log2 + w.unitExponent - (w.precision - 1) : ℕ))
    -- The significand is counted in units of its last bit.
    have hsame : roundQuotient a b = roundQuotient n (2 ^ (n.log2 - (w.precision - 1))) := by
      have hb' : (b : ℚ) ≠ 0 := by exact_mod_cast hb.ne'
      have hshift : (0 : ℤ) + w.unitExponent - (n.log2 + w.unitExponent - (w.precision - 1) : ℕ) =
          -(n.log2 - (w.precision - 1) : ℕ) := by omega
      rw [hshift, Nat.cast_one, div_one, zpow_neg, zpow_natCast, ← div_eq_mul_inv,
        div_eq_div_iff hb' (by positivity)] at hab
      exact roundQuotient_congr hb (by positivity) (by exact_mod_cast hab)
    obtain ⟨hlow, hhigh⟩ := significand_bounds hn.ne' hlog
    obtain ⟨m, hm, hvalue⟩ := exists_carry hlow hhigh
      (e := n.log2 + w.unitExponent - (w.precision - 1)) (by omega)
    have hunits : ((n.log2 + w.unitExponent - (w.precision - 1) : ℕ) : ℤ) - w.unitExponent =
        (n.log2 - (w.precision - 1) : ℕ) := by omega
    refine ⟨m, ?_, ?_⟩
    · simp only [round?, if_neg hn.ne', exponent_natCast hn, hsig, hsame]
      exact hm
    · rw [hvalue, hunits, zpow_natCast, nearest, Nat.cast_mul, Nat.cast_pow, Nat.cast_two]

end Magnitude

/-! ### Rounding to the wide precision first -/

theorem nearest_two_pow (k : Nat) : nearest w (2 ^ k) = 2 ^ k := by
  rcases Nat.le_total k (w.precision - 1) with h | h
  · exact nearest_of_lt (by rwa [Nat.log2_two_pow])
  · have hsplit : 2 ^ k = 2 ^ (w.precision - 1) * 2 ^ (k - (w.precision - 1)) := by
      rw [← pow_add, Nat.add_sub_cancel' h]
    have hround := roundQuotient_mul_self (2 ^ (w.precision - 1))
      (show 0 < 2 ^ (k - (w.precision - 1)) by positivity)
    rw [← hsplit] at hround
    rw [nearest, Nat.log2_two_pow, hround, ← hsplit]

/-- The nearest number of the wide precision lies halfway between two neighbours of the narrow
precision without being the number itself, and the tie between them is broken away from the
number. -/
def DoublyRounded (n : Nat) : Prop :=
  TieLost n (2 ^ (n.log2 - 52)) (2 * 2 ^ 28)

instance (n : Nat) : Decidable (DoublyRounded n) :=
  inferInstanceAs (Decidable (TieLost _ _ _))

/-- What the wide precision holds is rounded once only. -/
theorem not_doublyRounded_of_log2_le (h : n.log2 ≤ 52) : ¬ DoublyRounded n := by
  simp [DoublyRounded, TieLost, Nat.sub_eq_zero_of_le h, roundQuotient_one]

/-- A number is rounded to the narrow precision by way of the wide one as it is at once, unless it
is rounded to a halfway point and the tie is lost. -/
theorem nearest_nearest_iff (n : Nat) :
    nearest .w32 (nearest .w64 n) = nearest .w32 n ↔ ¬ DoublyRounded n := by
  rcases Nat.le_total n.log2 52 with hlog | hlog
  · rw [nearest_of_lt (w := .w64) hlog]
    exact iff_of_true rfl (not_doublyRounded_of_log2_le hlog)
  · have hn : n ≠ 0 := by
      rintro rfl
      rw [Nat.log2_zero] at hlog
      omega
    have hhigh : n < 2 ^ (n.log2 + 1) := Nat.lt_log2_self
    have hmhigh := (significand_bounds (w := .w64) hn hlog).2
    have hwide : nearest .w64 n = roundQuotient n (2 ^ (n.log2 - 52)) * 2 ^ (n.log2 - 52) := rfl
    have hnarrow : nearest .w32 n = roundQuotient n (2 ^ (n.log2 - 23)) * 2 ^ (n.log2 - 23) := rfl
    have hunit : 2 ^ (n.log2 - 23) = 2 ^ (n.log2 - 52) * (2 * 2 ^ 28) := by
      rw [show n.log2 - 23 = n.log2 - 52 + 29 by omega, pow_add]
      rfl
    have htop : 2 ^ (n.log2 + 1) = 2 ^ 53 * 2 ^ (n.log2 - 52) := by
      rw [← pow_add, show 53 + (n.log2 - 52) = n.log2 + 1 by omega]
    have hpos : 0 < 2 ^ (n.log2 - 52) := by positivity
    rcases hmhigh.eq_or_lt with hm | hm
    · -- Rounded up to a power of two, which the narrow precision holds as well.
      have hm : roundQuotient n (2 ^ (n.log2 - 52)) = 2 ^ 53 := hm
      have hlow := ((roundQuotient_eq_iff (q := 2 ^ 53) hpos).1 hm).1
      have hround : roundQuotient n (2 ^ (n.log2 - 23)) = 2 ^ 24 := by
        rw [roundQuotient_eq_iff (by positivity), hunit]
        omega
      rw [hwide, hm, ← htop, nearest_two_pow, hnarrow, hround, hunit, htop]
      simp only [DoublyRounded, TieLost, hm]
      omega
    · have hlog' : (nearest .w64 n).log2 = n.log2 := log2_nearest hn hlog hm
      have hdouble : nearest .w32 (nearest .w64 n) =
          roundQuotient (roundQuotient n (2 ^ (n.log2 - 52))) (2 * 2 ^ 28) * 2 ^ (n.log2 - 23) := by
        rw [nearest, hlog', hwide]
        show roundQuotient _ (2 ^ (n.log2 - 23)) * 2 ^ (n.log2 - 23) = _
        rw [hunit, Nat.mul_comm (2 ^ (n.log2 - 52)), roundQuotient_mul_right _ _ hpos]
      rw [hdouble, hnarrow, Nat.mul_left_inj (by positivity), hunit]
      exact roundQuotient_roundQuotient_iff hpos (by positivity)

namespace BinaryFloat

/-- A number with a whole magnitude is rounded like that whole number. -/
theorem ofRatio_of_value {v : Width} {m : Magnitude w} (h : m.value = n) (s : Bool) :
    ofRatio v s m.significand 1 ((m.exponent : ℤ) - w.unitExponent) = ofRatio v s n 1 0 := by
  have hround : Magnitude.round? v m.significand 1 ((m.exponent : ℤ) - w.unitExponent) =
      Magnitude.round? v n 1 0 := by
    refine Magnitude.round?_congr_value one_pos one_pos ?_
    rw [Nat.cast_one, div_one, div_one, zpow_zero, mul_one, ← h, Magnitude.value]
  rw [ofRatio, ofRatio, hround]

/-- An integer becomes the same narrow float by way of a wide one and at once, unless it is
rounded to a halfway point and the tie is lost. -/
theorem toWidth_ofInt_eq_iff {i : Int} (h : i.natAbs < 2 ^ 64) :
    (ofInt .w64 i).toWidth .w32 = ofInt .w32 i ↔ ¬ DoublyRounded i.natAbs := by
  rcases eq_or_ne i 0 with rfl | hi
  · exact iff_of_true rfl (by decide)
  · have hn : i.natAbs ≠ 0 := Int.natAbs_ne_zero.2 hi
    have hlog : i.natAbs.log2 < 64 := (Nat.log2_lt hn).2 h
    have hlog' : (nearest .w64 i.natAbs).log2 ≤ 64 := by
      have hle : nearest .w64 i.natAbs ≤ 2 ^ 64 :=
        (nearest_le hn).trans (Nat.pow_le_pow_right two_pos hlog)
      rw [Nat.log2_eq_log_two]
      exact (Nat.log_mono_right hle).trans_eq (Nat.log_pow one_lt_two 64)
    obtain ⟨m, hm, hvalue⟩ := Magnitude.exists_round?_natCast (w := .w64) (n := i.natAbs) (by
      show i.natAbs.log2 + 1074 + 1 ≤ 2045 + 52
      omega)
    obtain ⟨m₁, hm₁, hvalue₁⟩ :=
      Magnitude.exists_round?_natCast (w := .w32) (n := nearest .w64 i.natAbs) (by
        show _ + 149 + 1 ≤ 253 + 23
        omega)
    obtain ⟨m₂, hm₂, hvalue₂⟩ := Magnitude.exists_round?_natCast (w := .w32) (n := i.natAbs) (by
      show i.natAbs.log2 + 149 + 1 ≤ 253 + 23
      omega)
    have hwide : ofInt .w64 i = .finite (i < 0) m := by
      rw [ofInt, ofScaledInt, if_neg hi, ofRatio, hm]
    have hdouble : (ofInt .w64 i).toWidth .w32 = .finite (i < 0) m₁ := by
      rw [hwide]
      show ofRatio .w32 _ m.significand 1 _ = _
      rw [ofRatio_of_value hvalue, ofRatio, hm₁]
    have hnarrow : ofInt .w32 i = .finite (i < 0) m₂ := by
      rw [ofInt, ofScaledInt, if_neg hi, ofRatio, hm₂]
    rw [hdouble, hnarrow, ← nearest_nearest_iff, finite.injEq, and_iff_right rfl]
    constructor
    · rintro rfl
      exact_mod_cast hvalue₁.symm.trans hvalue₂
    · intro heq
      exact Magnitude.value_injective (by rw [hvalue₁, hvalue₂, heq])

end BinaryFloat

end ConstraintSearch

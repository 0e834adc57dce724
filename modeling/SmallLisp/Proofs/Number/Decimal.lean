import SmallLisp.Number.Decimal
import SmallLisp.Proofs.Number.Rational

/-!
# The nearest binary64 number of a decimal numeral

A decimal numeral is a sign and a rational number (`Decimal.magnitude`). Its
nearest binary64 number is the magnitude rounded once
(`Decimal.toBinary64_eq_round`): the numerals that are settled by their exponent
alone are rounded to zero and to infinity. So numerals of one sign and one
magnitude have the same nearest number (`Decimal.toBinary64_congr`).
-/

namespace SmallLisp

namespace Binary64

theorem unitsBound_pos : 0 < unitsBound := by decide +kernel

/-- A fraction that is at most one half is rounded to zero. -/
theorem nearest_of_two_mul_le {a b : Nat} (h : 2 * a ≤ b) : nearest a b = 0 := by
  have hdiv : a / b = 0 := Nat.div_eq_zero_iff.2 (by omega)
  have hmod : a % b = a := by
    have := Nat.div_add_mod a b
    rwa [hdiv, Nat.mul_zero, Nat.zero_add] at this
  have hs : spacing 0 = 1 := rfl
  simp only [nearest, hdiv, hs, divEven, Nat.mul_one, hmod]
  rw [if_neg]
  omega

/-- Rounding does not go below a power of two. -/
theorem pow_le_nearest {a k : Nat} (h : 2 ^ k ≤ a) : 2 ^ k ≤ nearest a 1 := by
  have hle : a / spacing a * spacing a ≤ nearest a 1 := by
    simp only [nearest, divEven, Nat.div_one, Nat.one_mul]
    refine Nat.mul_le_mul_right _ ?_
    split <;> omega
  refine Nat.le_trans ?_ hle
  -- The power is a multiple of the spacing, or the spacing is above it.
  rcases Nat.le_total (a.log2 - 52) k with hs | hs
  · have hdvd : spacing a ∣ 2 ^ k := Nat.pow_dvd_pow 2 hs
    calc 2 ^ k = 2 ^ k / spacing a * spacing a := (Nat.div_mul_cancel hdvd).symm
      _ ≤ a / spacing a * spacing a := Nat.mul_le_mul_right _ (Nat.div_le_div_right h)
  · have hle : 2 ^ k ≤ spacing a := Nat.pow_le_pow_right Nat.two_pos hs
    have ha : a ≠ 0 := (Nat.lt_of_lt_of_le (Nat.two_pow_pos k) h).ne'
    have hsa : spacing a ≤ a :=
      (Nat.pow_le_pow_right Nat.two_pos (Nat.sub_le _ _)).trans (Nat.log2_self_le ha)
    exact hle.trans (Nat.le_mul_of_pos_left _ (Nat.div_pos hsa (spacing_pos a)))

theorem round_of_two_mul_le {a b : Nat} (h : 2 * a ≤ b) (s : Bool) : round s a b = zero s := by
  simp only [round, nearest_of_two_mul_le h, unitsBound_pos, dif_pos]
  rfl

theorem round_of_unitsBound_le {a : Nat} (h : unitsBound ≤ a) (s : Bool) :
    round s a 1 = infinite s := by
  obtain ⟨k, hk⟩ : ∃ k, unitsBound = 2 ^ k := ⟨unitsBound.log2, by decide +kernel⟩
  have hn : unitsBound ≤ nearest a 1 := by
    rw [hk] at h ⊢
    exact pow_le_nearest h
  exact dif_neg (Nat.not_lt.2 hn)

/-- Rounding depends on the fraction alone. -/
theorem round_congr {a b a' b' : Nat} (hb : 0 < b) (hb' : 0 < b') (h : a * b' = a' * b)
    (s : Bool) : round s a b = round s a' b' := by
  have hn : nearest a b = nearest a' b' := by
    rw [← nearest_mul_left hb' a b, ← nearest_mul_left hb a' b', Nat.mul_comm b' a, h,
      Nat.mul_comm a' b, Nat.mul_comm b' b]
  simp only [round, hn]

end Binary64

namespace Decimal

open Binary64

/-- The number that a numeral is, without its sign. -/
def magnitude (d : Decimal) : ℚ := d.coefficient * 10 ^ d.exponent

/-- The magnitude as a fraction: what stands above. -/
def numerator (d : Decimal) : Nat := d.coefficient * 10 ^ d.exponent.toNat

/-- The magnitude as a fraction: what stands below. -/
def denominator (d : Decimal) : Nat := 10 ^ (-d.exponent).toNat

theorem denominator_pos (d : Decimal) : 0 < d.denominator := Nat.pow_pos (by decide)

theorem magnitude_eq (d : Decimal) : d.magnitude = d.numerator / d.denominator := by
  have h10 : (10 : ℚ) ≠ 0 := by decide
  have hz : (10 : ℚ) ^ d.exponent = 10 ^ d.exponent.toNat / 10 ^ (-d.exponent).toNat := by
    rw [← zpow_natCast, ← zpow_natCast, ← zpow_sub₀ h10, Int.toNat_sub_toNat_neg]
  rw [magnitude, hz, numerator, denominator]
  push_cast
  rw [mul_div_assoc]

variable {d : Decimal}

/-- An exponent from the bound on is beyond the finite numbers. -/
theorem unitsBound_le_numerator (hc : d.coefficient ≠ 0) (he : exponentBound ≤ d.exponent) :
    unitsBound ≤ d.numerator * unitsPerOne := by
  have he' : 400 ≤ d.exponent.toNat := (Int.le_toNat (by unfold exponentBound at he; omega)).2 he
  calc unitsBound ≤ 1 * 10 ^ 400 * unitsPerOne := by decide +kernel
    _ ≤ d.numerator * unitsPerOne := Nat.mul_le_mul_right _
      (Nat.mul_le_mul (Nat.pos_of_ne_zero hc) (Nat.pow_le_pow_right (by decide) he'))

/-- The digits of a coefficient are no more than its bits, so that an exponent far enough below zero
leaves less than half a unit. -/
theorem numerator_le_denominator (he : d.exponent + d.coefficient.log2 + 1 ≤ -exponentBound) :
    2 * (d.numerator * unitsPerOne) ≤ d.denominator := by
  obtain ⟨k, hk⟩ : ∃ k, (-d.exponent).toNat = d.coefficient.log2 + 1 + 400 + k := by
    unfold exponentBound at he
    exact ⟨(-d.exponent).toNat - (d.coefficient.log2 + 1 + 400), by omega⟩
  have h0 : d.exponent.toNat = 0 := by
    unfold exponentBound at he
    omega
  have hc : d.coefficient ≤ 2 ^ (d.coefficient.log2 + 1) := Nat.lt_log2_self.le
  calc 2 * (d.numerator * unitsPerOne) = d.coefficient * (2 * unitsPerOne) := by
        rw [numerator, h0, Nat.pow_zero, Nat.mul_one, Nat.mul_left_comm]
    _ ≤ 2 ^ (d.coefficient.log2 + 1) * 10 ^ 400 := Nat.mul_le_mul hc (by decide +kernel)
    _ ≤ 10 ^ (d.coefficient.log2 + 1) * 10 ^ 400 :=
      Nat.mul_le_mul_right _ (Nat.pow_le_pow_left (by decide) _)
    _ ≤ d.denominator := by
      rw [denominator, hk, ← Nat.pow_add]
      exact Nat.pow_le_pow_right (by decide) (Nat.le_add_right _ k)

theorem toBinary64_eq_round (d : Decimal) :
    d.toBinary64 = round d.negative (d.numerator * unitsPerOne) d.denominator := by
  unfold toBinary64
  split
  · rename_i hc
    rw [numerator, hc, Nat.zero_mul, Nat.zero_mul, round_of_two_mul_le (Nat.zero_le _)]
  split
  · rename_i hc he
    have hden : d.denominator = 1 := by
      unfold exponentBound at he
      rw [denominator, Int.toNat_of_nonpos (by omega), Nat.pow_zero]
    rw [hden, round_of_unitsBound_le (unitsBound_le_numerator hc he)]
  split
  · rename_i he
    rw [round_of_two_mul_le (numerator_le_denominator he)]
  split
  · rename_i e he
    have hnum : d.numerator = d.coefficient * Nat.pow 10 e := by
      rw [numerator, he]
      rfl
    have hden : d.denominator = 1 := by
      have h0 : (-Int.ofNat e).toNat = 0 :=
        Int.toNat_of_nonpos (neg_nonpos.2 (Int.natCast_nonneg e))
      rw [denominator, he, h0, Nat.pow_zero]
    rw [hnum, hden]
  · rename_i e he
    have hnum : d.numerator = d.coefficient := by
      rw [numerator, he]
      exact Nat.mul_one _
    have hden : d.denominator = Nat.pow 10 (e + 1) := by
      rw [denominator, he]
      rfl
    rw [hnum, hden]

theorem toBinary64_congr {d d' : Decimal} (hs : d.negative = d'.negative)
    (hm : d.magnitude = d'.magnitude) : d.toBinary64 = d'.toBinary64 := by
  have hcross : d.numerator * d'.denominator = d'.numerator * d.denominator := by
    rw [magnitude_eq, magnitude_eq, div_eq_div_iff (Nat.cast_ne_zero.2 d.denominator_pos.ne')
      (Nat.cast_ne_zero.2 d'.denominator_pos.ne')] at hm
    exact_mod_cast hm
  rw [toBinary64_eq_round, toBinary64_eq_round, hs]
  refine round_congr d.denominator_pos d'.denominator_pos ?_ _
  rw [Nat.mul_right_comm, hcross, Nat.mul_right_comm]

end Decimal

end SmallLisp

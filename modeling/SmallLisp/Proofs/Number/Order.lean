import SmallLisp.Proofs.Number.Decimal

/-!
# Rounding keeps the order

A greater count of units is not rounded below a smaller one
(`Binary64.nearest_mono`): within a binade both are rounded to multiples of one
spacing, and between two binades stands a power of two, which is its own
rounding. So no integer is rounded below a smaller one (`Binary64.rounded_mono`).
-/

namespace SmallLisp.Binary64

/-! ## Multiples of one spacing -/

theorem le_divEven (a b : Nat) : a / b ≤ divEven a b := by
  simp only [divEven]
  split <;> omega

theorem divEven_mono {a b : Nat} (h : a ≤ b) (c : Nat) : divEven a c ≤ divEven b c := by
  rcases Nat.eq_or_lt_of_le (Nat.div_le_div_right (c := c) h) with hq | hq
  · have hr : a % c ≤ b % c := by
      have ha := Nat.div_add_mod a c
      have hb := Nat.div_add_mod b c
      rw [hq] at ha
      omega
    simp only [divEven, hq]
    split <;> split <;> omega
  · calc divEven a c ≤ a / c + 1 := divEven_le a c
      _ ≤ b / c := hq
      _ ≤ divEven b c := le_divEven b c

theorem divEven_mul_self (m : Nat) {n : Nat} (h : 0 < n) : divEven (m * n) n = m := by
  simp only [divEven, Nat.mul_div_cancel m h, Nat.mul_mod_left]
  rw [if_neg]
  omega

/-! ## Binades -/

variable {a b k : Nat}

theorem log2_le_of_le_pow (h : a ≤ 2 ^ k) : a.log2 ≤ k := by
  rcases Nat.eq_zero_or_pos a with rfl | ha
  · exact Nat.zero_le k
  · exact (Nat.pow_le_pow_iff_right (by decide)).1 ((Nat.log2_self_le ha.ne').trans h)

/-- Rounding does not go above a power of two. -/
theorem nearest_le_pow (h : a ≤ 2 ^ k) : nearest a 1 ≤ 2 ^ k := by
  have hlog := log2_le_of_le_pow h
  have hdvd : spacing a ∣ 2 ^ k := Nat.pow_dvd_pow 2 (by omega)
  have hle : divEven a (spacing a) ≤ 2 ^ k / spacing a := by
    rw [← divEven_mul_self (2 ^ k / spacing a) (spacing_pos a), Nat.div_mul_cancel hdvd]
    exact divEven_mono h _
  simp only [nearest, Nat.div_one, Nat.one_mul]
  calc divEven a (spacing a) * spacing a ≤ 2 ^ k / spacing a * spacing a :=
        Nat.mul_le_mul_right _ hle
    _ = 2 ^ k := Nat.div_mul_cancel hdvd

theorem nearest_mono (h : a ≤ b) : nearest a 1 ≤ nearest b 1 := by
  rcases Nat.eq_zero_or_pos b with rfl | hb
  · rw [Nat.le_zero.1 h]
  have hpow := Nat.log2_self_le hb.ne'
  rcases Nat.lt_or_ge a (2 ^ b.log2) with ha | ha
  · -- The power of two at which the binade of `b` begins stands in between.
    exact (nearest_le_pow ha.le).trans (pow_le_nearest hpow)
  · have ha0 : a ≠ 0 := ((Nat.two_pow_pos _).trans_le ha).ne'
    have hlog : a.log2 = b.log2 := Nat.le_antisymm
      ((Nat.le_log2 hb.ne').2 ((Nat.log2_self_le ha0).trans h)) ((Nat.le_log2 ha0).2 ha)
    have hs : spacing a = spacing b := by rw [spacing, spacing, hlog]
    simp only [nearest, Nat.div_one, hs]
    exact Nat.mul_le_mul_right _ (divEven_mono h _)

/-! ## Integers -/

/-- The rational number that an integer is rounded to. -/
def rounded (z : ℤ) : ℚ := signed (z < 0) (nearest (z.natAbs * unitsPerOne) 1) / unitsPerOne

theorem rounded_mono {z w : ℤ} (h : z ≤ w) : rounded z ≤ rounded w := by
  have hU : (0 : ℚ) < unitsPerOne := Nat.cast_pos.2 unitsPerOne_pos
  rw [rounded, rounded, div_le_div_iff_of_pos_right hU, Int.cast_le]
  by_cases hz : z < 0
  · by_cases hw : w < 0
    · have hn : w.natAbs * unitsPerOne ≤ z.natAbs * unitsPerOne :=
        Nat.mul_le_mul_right _ (by omega)
      have := nearest_mono hn
      simp only [signed, hz, hw, decide_true, if_true]
      omega
    · simp only [signed, hz, hw, decide_true, decide_false, if_true, Bool.false_eq_true, if_false]
      omega
  · have hw : ¬ w < 0 := by omega
    have hn : z.natAbs * unitsPerOne ≤ w.natAbs * unitsPerOne :=
      Nat.mul_le_mul_right _ (by omega)
    have := nearest_mono hn
    simp only [signed, hz, hw, decide_false, Bool.false_eq_true, if_false]
    omega

/-- The integers of 64 bits are rounded to finite numbers. -/
theorem value?_ofInt_toInt (n : Int64) : (ofInt n.toInt).value? = some (rounded n.toInt) := by
  have hn : n.toInt.natAbs * unitsPerOne ≤ 2 ^ 1137 := by
    have hlo := n.le_toInt
    have hhi := n.toInt_lt
    calc n.toInt.natAbs * unitsPerOne ≤ 2 ^ 63 * unitsPerOne :=
          Nat.mul_le_mul_right _ (by omega)
      _ ≤ 2 ^ 1137 := by decide +kernel
  have hlt : nearest (n.toInt.natAbs * unitsPerOne) 1 < unitsBound :=
    (nearest_le_pow hn).trans_lt (by decide +kernel)
  simp only [ofInt, round, hlt, dif_pos]
  rfl

theorem rounded_of_small {z : ℤ} (h : |z| ≤ 2 ^ 53) : rounded z = z := by
  rw [Int.abs_eq_natAbs] at h
  have hr : Representable (z.natAbs * unitsPerOne) :=
    representable_mul_unitsPerOne (by exact_mod_cast h)
  rw [rounded, nearest_of_representable hr, signed_mul_natCast, signed_natAbs]
  push_cast
  exact mul_div_cancel_right₀ _ unitsPerOne_ne_zero

/-- No integer but zero is rounded to zero. -/
theorem rounded_eq_zero_iff {z : ℤ} : rounded z = 0 ↔ z = 0 := by
  have h0 : rounded 0 = 0 := (rounded_of_small (by decide)).trans Int.cast_zero
  have h1 : rounded 1 = 1 := (rounded_of_small (by decide)).trans Int.cast_one
  have hm : rounded (-1) = -1 := (rounded_of_small (by decide)).trans (by norm_num)
  constructor
  · intro h
    rcases lt_trichotomy z 0 with hz | hz | hz
    · have := rounded_mono (show z ≤ -1 by omega)
      rw [h, hm] at this
      exact absurd this (by decide)
    · exact hz
    · have := rounded_mono (show 1 ≤ z by omega)
      rw [h, h1] at this
      exact absurd this (by decide)
  · rintro rfl
    exact h0

end SmallLisp.Binary64

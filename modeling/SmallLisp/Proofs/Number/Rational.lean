import Mathlib.Algebra.Order.Field.Rat
import Mathlib.Data.Rat.Cast.Order
import Mathlib.Tactic.FieldSimp
import Mathlib.Tactic.Positivity
import Mathlib.Tactic.Push
import SmallLisp.Number.Binary64
import SmallLisp.Proofs.Number.Numeral

/-!
# Binary64 numbers as rational numbers

A finite number is a rational one (`Binary64.value?`). An operation whose exact
result is such a number again (`Binary64.IsExact`) gives just this: `value?_add`
to `value?_div` for the operations, `value?_ofInt` for integers. All integers up
to `2⁵³` are such numbers (`isExact_intCast`).

`toInt?_eq_some_iff`, `numEq_of_value?`: whether a number is an integer and
whether two are equal is told by their values.
-/

namespace SmallLisp.Binary64

/-- The rational number that a finite number is. -/
def value? : Binary64 → Option ℚ
  | finite s n _ => some (signed s n / unitsPerOne)
  | _ => none

/-- The rational number is that of a finite number. -/
def IsExact (q : ℚ) : Prop := ∃ n, Representable n ∧ |q| = n / unitsPerOne

variable {x y : Binary64} {a b : ℚ}

theorem exists_finite_of_value? (h : x.value? = some a) :
    ∃ s n, ∃ hn : Representable n, x = finite s n hn ∧ a = signed s n / unitsPerOne := by
  cases x with
  | finite s n hn => exact ⟨s, n, hn, rfl, (Option.some.inj h).symm⟩
  | nan => cases h
  | infinite s => cases h

/-! ## Counts of units -/

theorem unitsPerOne_pos : 0 < unitsPerOne := by decide +kernel

theorem unitsPerOne_ne_zero : (unitsPerOne : ℚ) ≠ 0 :=
  Nat.cast_ne_zero.2 unitsPerOne_pos.ne'

theorem abs_signed (s : Bool) (n : Nat) : |(signed s n : ℚ)| = n := by
  cases s <;> simp [signed]

theorem signed_zero (s : Bool) : signed s 0 = 0 := by cases s <;> rfl

theorem signed_not (s : Bool) (n : Nat) : signed (!s) n = -signed s n := by
  cases s <;> simp [signed]

theorem signed_mul (s t : Bool) (m n : Nat) :
    signed s m * signed t n = signed (s != t) (m * n) := by
  cases s <;> cases t <;> simp [signed]

/-- A factor without a sign. -/
theorem signed_mul_natCast (s : Bool) (m n : Nat) : signed s (m * n) = signed s m * n := by
  cases s <;> simp [signed]

theorem signed_natAbs (z : Int) : signed (z < 0) z.natAbs = z := Numeral.sign_natAbs z

/-! ## Exact rounding -/

/-- A fraction that is a count of units is rounded to it. -/
theorem round_of_eq_mul {m n k : Nat} (hn : 0 < n) (h : Representable k) (e : m = n * k)
    (s : Bool) : round s m n = finite s k h := by
  have hk : nearest m n = k := by
    have := nearest_mul_left hn k 1
    rwa [Nat.mul_one, nearest_of_representable h, ← e] at this
  simp only [round, hk, h.1, dif_pos]

theorem value?_round {s : Bool} {m n : Nat} (hn : 0 < n)
    (h : IsExact ((signed s m : ℚ) / n / unitsPerOne)) :
    (round s m n).value? = some ((signed s m : ℚ) / n / unitsPerOne) := by
  obtain ⟨k, hk, hq⟩ := h
  have hn' : (n : ℚ) ≠ 0 := Nat.cast_ne_zero.2 hn.ne'
  have hmk : m = n * k := by
    rw [abs_div, abs_div, abs_signed, Nat.abs_cast, Nat.abs_cast,
      div_left_inj' unitsPerOne_ne_zero, div_eq_iff hn'] at hq
    rw [Nat.mul_comm]
    exact_mod_cast hq
  rw [round_of_eq_mul hn hk hmk]
  show some ((signed s k : ℚ) / unitsPerOne) = _
  rw [hmk, Nat.mul_comm n k, signed_mul_natCast]
  push_cast
  rw [mul_div_cancel_right₀ _ hn']

theorem value?_ofInt {z : Int} (h : IsExact z) : (ofInt z).value? = some (z : ℚ) := by
  have hz : (signed (z < 0) (z.natAbs * unitsPerOne) : ℚ) / (1 : Nat) / unitsPerOne = z := by
    rw [signed_mul_natCast, signed_natAbs, Nat.cast_one, div_one]
    push_cast
    exact mul_div_cancel_right₀ _ unitsPerOne_ne_zero
  rw [← hz] at h ⊢
  exact value?_round Nat.one_pos h

theorem representable_mul_unitsPerOne {n : Nat} (h : n ≤ 2 ^ 53) :
    Representable (n * unitsPerOne) := by
  obtain ⟨k, hk⟩ : ∃ k, unitsPerOne = Nat.pow 2 k := ⟨unitsPerOne.log2, by decide +kernel⟩
  refine ⟨?_, by rw [hk]; exact spacing_dvd_mul_pow h k⟩
  calc n * unitsPerOne ≤ 2 ^ 53 * unitsPerOne := Nat.mul_le_mul_right _ h
    _ < unitsBound := by decide +kernel

theorem isExact_of_representable {z : Int} (h : Representable (z.natAbs * unitsPerOne)) :
    IsExact z := by
  refine ⟨_, h, ?_⟩
  rw [Nat.cast_mul, mul_div_cancel_right₀ _ unitsPerOne_ne_zero, Nat.cast_natAbs, Int.cast_abs]

theorem isExact_intCast {z : Int} (h : |z| ≤ 2 ^ 53) : IsExact z := by
  rw [Int.abs_eq_natAbs] at h
  exact isExact_of_representable (representable_mul_unitsPerOne (by exact_mod_cast h))

/-! ## Exact operations -/

theorem value?_neg (h : x.value? = some a) : (-x).value? = some (-a) := by
  obtain ⟨s, n, hn, rfl, rfl⟩ := exists_finite_of_value? h
  show some ((signed (!s) n : ℚ) / unitsPerOne) = _
  rw [signed_not, Int.cast_neg, neg_div]

theorem value?_add (hx : x.value? = some a) (hy : y.value? = some b) (h : IsExact (a + b)) :
    (x + y).value? = some (a + b) := by
  obtain ⟨s, m, hm, rfl, rfl⟩ := exists_finite_of_value? hx
  obtain ⟨t, n, hn, rfl, rfl⟩ := exists_finite_of_value? hy
  generalize hz : signed s m + signed t n = z
  have hsum : (signed s m : ℚ) / unitsPerOne + signed t n / unitsPerOne = z / unitsPerOne := by
    rw [← add_div, ← Int.cast_add, hz]
  have hadd : finite s m hm + finite t n hn =
      if z = 0 then zero (s && t) else round (z < 0) z.natAbs 1 := by
    rw [← hz]
    rfl
  rw [hsum] at h ⊢
  rw [hadd]
  split
  · rename_i h0
    show some ((signed (s && t) 0 : ℚ) / unitsPerOne) = _
    rw [h0, signed_zero]
  · have he : (signed (z < 0) z.natAbs : ℚ) / (1 : Nat) / unitsPerOne = z / unitsPerOne := by
      rw [signed_natAbs, Nat.cast_one, div_one]
    rw [← he] at h ⊢
    exact value?_round Nat.one_pos h

theorem value?_sub (hx : x.value? = some a) (hy : y.value? = some b) (h : IsExact (a - b)) :
    (x - y).value? = some (a - b) := by
  rw [sub_eq_add_neg] at h ⊢
  exact value?_add hx (value?_neg hy) h

theorem value?_mul (hx : x.value? = some a) (hy : y.value? = some b) (h : IsExact (a * b)) :
    (x * y).value? = some (a * b) := by
  obtain ⟨s, m, hm, rfl, rfl⟩ := exists_finite_of_value? hx
  obtain ⟨t, n, hn, rfl, rfl⟩ := exists_finite_of_value? hy
  have hmul : (signed s m : ℚ) / unitsPerOne * (signed t n / unitsPerOne) =
      signed (s != t) (m * n) / unitsPerOne / unitsPerOne := by
    rw [← signed_mul, Int.cast_mul, div_mul_div_comm, div_div]
  have hround : finite s m hm * finite t n hn = round (s != t) (m * n) unitsPerOne := by
    show mul _ _ = _
    rw [mul]
  rw [hmul] at h ⊢
  rw [hround]
  exact value?_round unitsPerOne_pos h

theorem isZero_iff (h : x.value? = some a) : x.isZero = true ↔ a = 0 := by
  obtain ⟨s, n, hn, rfl, rfl⟩ := exists_finite_of_value? h
  rw [div_eq_zero_iff, or_iff_left unitsPerOne_ne_zero, ← abs_eq_zero, abs_signed, Nat.cast_eq_zero]
  exact beq_iff_eq

theorem value?_div (hx : x.value? = some a) (hy : y.value? = some b) (hb : b ≠ 0)
    (h : IsExact (a / b)) : (x / y).value? = some (a / b) := by
  have hy0 := mt (isZero_iff hy).1 hb
  obtain ⟨s, m, hm, rfl, rfl⟩ := exists_finite_of_value? hx
  obtain ⟨t, n, hn, rfl, rfl⟩ := exists_finite_of_value? hy
  have hn0 : n ≠ 0 := fun h0 => hy0 (beq_iff_eq.2 h0)
  have hdiv : (signed s m : ℚ) / unitsPerOne / (signed t n / unitsPerOne) =
      signed (s != t) (m * unitsPerOne) / n / unitsPerOne := by
    have hn' : (n : ℚ) ≠ 0 := Nat.cast_ne_zero.2 hn0
    rw [signed_mul_natCast, div_div_div_cancel_right₀ unitsPerOne_ne_zero]
    push_cast
    rw [div_right_comm, mul_div_cancel_right₀ _ unitsPerOne_ne_zero]
    cases s <;> cases t <;> simp [signed, neg_div, div_neg]
  have hround : finite s m hm / finite t n hn = round (s != t) (m * unitsPerOne) n :=
    if_neg hn0
  rw [hdiv] at h ⊢
  rw [hround]
  exact value?_round (Nat.pos_of_ne_zero hn0) h

/-! ## Integers and equality -/

theorem natAbs_signed (s : Bool) (n : Nat) : (signed s n).natAbs = n := by
  cases s <;> simp [signed]

theorem toInt?_finite {s : Bool} {n : Nat} (h : Representable n) {z : Int} :
    (finite s n h).toInt? = some z ↔ signed s n = z * unitsPerOne := by
  have hU : (unitsPerOne : Int) ≠ 0 := Nat.cast_ne_zero.2 unitsPerOne_pos.ne'
  rw [toInt?]
  constructor
  · intro hz
    split at hz
    · rename_i hdvd
      obtain rfl := Option.some.inj hz
      rw [← signed_mul_natCast, Nat.div_mul_cancel (Nat.dvd_of_mod_eq_zero hdvd)]
    · cases hz
  · intro hz
    have hn : n = z.natAbs * unitsPerOne := by
      rw [← natAbs_signed s n, hz, Int.natAbs_mul, Int.natAbs_natCast]
    have hs : signed s z.natAbs = z := by
      rw [hn, signed_mul_natCast] at hz
      exact mul_right_cancel₀ hU hz
    rw [if_pos (by rw [hn, Nat.mul_mod_left]), hn, Nat.mul_div_cancel _ unitsPerOne_pos, hs]

theorem toInt?_eq_some_iff {z : Int} : x.toInt? = some z ↔ x.value? = some (z : ℚ) := by
  cases x with
  | nan => exact iff_of_false nofun nofun
  | infinite s => exact iff_of_false nofun nofun
  | finite s n hn =>
    rw [toInt?_finite, value?, Option.some.injEq, div_eq_iff unitsPerOne_ne_zero]
    exact_mod_cast Iff.rfl

theorem numEq_of_value? (hx : x.value? = some a) (hy : y.value? = some b) :
    x.numEq y = true ↔ a = b := by
  obtain ⟨s, m, hm, rfl, rfl⟩ := exists_finite_of_value? hx
  obtain ⟨t, n, hn, rfl, rfl⟩ := exists_finite_of_value? hy
  rw [div_left_inj' unitsPerOne_ne_zero, Int.cast_inj]
  exact beq_iff_eq

theorem numLt_of_value? (hx : x.value? = some a) (hy : y.value? = some b) :
    x.numLt y = true ↔ a < b := by
  obtain ⟨s, m, hm, rfl, rfl⟩ := exists_finite_of_value? hx
  obtain ⟨t, n, hn, rfl, rfl⟩ := exists_finite_of_value? hy
  rw [div_lt_div_iff_of_pos_right (Nat.cast_pos.2 unitsPerOne_pos), Int.cast_lt]
  exact decide_eq_true_iff

theorem isExact_of_value? (h : x.value? = some a) : IsExact a := by
  obtain ⟨s, n, hn, rfl, rfl⟩ := exists_finite_of_value? h
  exact ⟨n, hn, by rw [abs_div, abs_signed, Nat.abs_cast]⟩

end SmallLisp.Binary64

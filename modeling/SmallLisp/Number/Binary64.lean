/-!
# Binary64 numbers

A finite number is a whole count of `2⁻¹⁰⁷⁴`, the least positive one, with at
most 53 significant bits (`Representable`). In these units a sum of numbers is
a sum of integers, a product or a quotient is a fraction of integers, and the
order is the order of integers; every operation is the exact result rounded
once (`Binary64.round`), to the nearest number and to the even one of two.

`spacing_dvd_nearest`: rounding gives a representable count.
`nearest_of_representable`: a representable count is its own rounding.
`nearest_mul_left`: rounding depends on the fraction alone.
-/

namespace SmallLisp

namespace Binary64

/-! ## Counts of units -/

/-- The number one in units. -/
def unitsPerOne : Nat := Nat.pow 2 1074

/-- Finite magnitudes end before this count, which is `2¹⁰²⁴`. -/
def unitsBound : Nat := Nat.pow 2 2098

/-- The distance between neighbouring numbers around `n` units, which leaves 53 significant bits. -/
def spacing (n : Nat) : Nat := Nat.pow 2 (n.log2 - 52)

/-- The counts of units that are finite numbers. -/
def Representable (n : Nat) : Prop := n < unitsBound ∧ spacing n ∣ n

instance (n : Nat) : Decidable (Representable n) := inferInstanceAs (Decidable (_ ∧ _))

/-- The fraction `a / b` as the nearest whole number, the even one of two. -/
def divEven (a b : Nat) : Nat :=
  let q := a / b
  let r := a % b
  if b < 2 * r ∨ (2 * r = b ∧ q % 2 = 1) then q + 1 else q

/-- The fraction `a / b` as the nearest multiple of the spacing around it. -/
def nearest (a b : Nat) : Nat :=
  let s := spacing (a / b)
  divEven a (b * s) * s

theorem spacing_pos (n : Nat) : 0 < spacing n := Nat.two_pow_pos _

theorem divEven_le (a b : Nat) : divEven a b ≤ a / b + 1 := by
  simp only [divEven]; split <;> omega

/-- Up to `2⁵³` multiples of a power of two fit their spacing. -/
theorem spacing_dvd_mul_pow {m : Nat} (hm : m ≤ Nat.pow 2 53) (k : Nat) :
    spacing (m * Nat.pow 2 k) ∣ m * Nat.pow 2 k := by
  simp only [spacing, Nat.pow_eq] at hm ⊢
  rcases Nat.eq_zero_or_pos m with rfl | h0
  · simp
  have hne : m * 2 ^ k ≠ 0 := Nat.mul_ne_zero (by omega) (Nat.ne_of_gt (Nat.two_pow_pos k))
  rcases Nat.lt_or_eq_of_le hm with h | rfl
  · have hlog : (m * 2 ^ k).log2 < 53 + k := by
      rw [Nat.log2_lt hne, Nat.pow_add]
      exact Nat.mul_lt_mul_of_pos_right h (Nat.two_pow_pos k)
    exact Nat.dvd_trans (Nat.pow_dvd_pow 2 (by omega)) (Nat.dvd_mul_left _ _)
  · rw [← Nat.pow_add, Nat.log2_two_pow]
    exact Nat.pow_dvd_pow 2 (by omega)

theorem div_spacing_lt (q : Nat) : q / spacing q < Nat.pow 2 53 := by
  rw [Nat.div_lt_iff_lt_mul (spacing_pos q)]
  simp only [spacing, Nat.pow_eq]
  rw [← Nat.pow_add]
  exact Nat.lt_of_lt_of_le Nat.lt_log2_self (Nat.pow_le_pow_right (by omega) (by omega))

theorem spacing_dvd_nearest (a b : Nat) : spacing (nearest a b) ∣ nearest a b := by
  refine spacing_dvd_mul_pow (Nat.le_trans (divEven_le _ _) ?_) _
  rw [← Nat.div_div_eq_div_mul]
  exact div_spacing_lt _

theorem nearest_of_representable {n : Nat} (h : Representable n) : nearest n 1 = n := by
  simp only [nearest, divEven, Nat.div_one, Nat.one_mul, Nat.mod_eq_zero_of_dvd h.2, Nat.mul_zero]
  rw [if_neg]
  · exact Nat.div_mul_cancel h.2
  · have := spacing_pos n; omega

theorem divEven_mul_left {c : Nat} (hc : 0 < c) (a b : Nat) :
    divEven (c * a) (c * b) = divEven a b := by
  simp only [divEven, Nat.mul_div_mul_left a b hc, Nat.mul_mod_mul_left, Nat.mul_left_comm 2 c,
    Nat.mul_lt_mul_left hc, Nat.mul_right_inj (Nat.ne_of_gt hc)]

theorem nearest_mul_left {c : Nat} (hc : 0 < c) (a b : Nat) :
    nearest (c * a) (c * b) = nearest a b := by
  simp only [nearest, Nat.mul_div_mul_left a b hc, Nat.mul_assoc, divEven_mul_left hc]

end Binary64

/-! ## Numbers -/

open Binary64 in
/-- A binary64 number. There is one NaN; a zero has a sign. -/
inductive Binary64
  | nan
  | infinite (negative : Bool)
  | finite (negative : Bool) (units : Nat) (representable : Representable units)
deriving DecidableEq

namespace Binary64

/-- The integer `± n`. -/
def signed (negative : Bool) (n : Nat) : Int := if negative then -n else n

/-- The fraction `± a / b` of units, rounded; beyond the last finite magnitude it is infinite. -/
def round (negative : Bool) (a b : Nat) : Binary64 :=
  if h : nearest a b < unitsBound then
    finite negative (nearest a b) ⟨h, spacing_dvd_nearest a b⟩
  else infinite negative

/-- The zero of a sign. -/
def zero (negative : Bool) : Binary64 := finite negative 0 (by decide +kernel)

/-- An integer as the nearest number. -/
def ofInt (z : Int) : Binary64 := round (z < 0) (z.natAbs * unitsPerOne) 1

/-- The number one. -/
def one : Binary64 := ofInt 1

/-- The number with the other sign. -/
def neg : Binary64 → Binary64
  | nan => nan
  | infinite s => infinite !s
  | finite s n h => finite (!s) n h

/-- An exact sum of zero is negative only if both terms are. -/
def add : Binary64 → Binary64 → Binary64
  | nan, _ | _, nan => nan
  | infinite s, infinite t => if s = t then infinite s else nan
  | infinite s, finite .. | finite .., infinite s => infinite s
  | finite s m _, finite t n _ =>
    let z := signed s m + signed t n
    if z = 0 then zero (s && t) else round (z < 0) z.natAbs 1

/-- A difference is the sum with the other sign. -/
def sub (x y : Binary64) : Binary64 := add x (neg y)

/-- The product; zero times an infinity is NaN. -/
def mul : Binary64 → Binary64 → Binary64
  | nan, _ | _, nan => nan
  | infinite s, infinite t => infinite (s != t)
  | infinite s, finite t n _ | finite t n _, infinite s => if n = 0 then nan else infinite (s != t)
  | finite s m _, finite t n _ => round (s != t) (m * n) unitsPerOne

/-- The quotient; zero by zero and infinity by infinity are NaN. -/
def div : Binary64 → Binary64 → Binary64
  | nan, _ | _, nan => nan
  | infinite _, infinite _ => nan
  | infinite s, finite t .. => infinite (s != t)
  | finite s .., infinite t => zero (s != t)
  | finite s m _, finite t n _ =>
    if n = 0 then if m = 0 then nan else infinite (s != t)
    else round (s != t) (m * unitsPerOne) n

instance : Neg Binary64 := ⟨neg⟩
instance : Add Binary64 := ⟨add⟩
instance : Sub Binary64 := ⟨sub⟩
instance : Mul Binary64 := ⟨mul⟩
instance : Div Binary64 := ⟨div⟩

/-! ## Comparison -/

/-- Whether the numbers are equal: the two zeros are, NaN equals nothing. -/
def numEq : Binary64 → Binary64 → Bool
  | nan, _ | _, nan => false
  | infinite s, infinite t => s == t
  | infinite _, finite .. | finite .., infinite _ => false
  | finite s m _, finite t n _ => signed s m == signed t n

/-- Whether the first number is the smaller; never so with a NaN. -/
def numLt : Binary64 → Binary64 → Bool
  | nan, _ | _, nan => false
  | infinite s, infinite t => s && !t
  | infinite s, finite .. => s
  | finite .., infinite t => !t
  | finite s m _, finite t n _ => decide (signed s m < signed t n)

/-- Either zero. -/
def isZero : Binary64 → Bool
  | finite _ n _ => n == 0
  | _ => false

/-- The integer that the number is, if it is one. -/
def toInt? : Binary64 → Option Int
  | finite s n _ => if n % unitsPerOne = 0 then some (signed s (n / unitsPerOne)) else none
  | _ => none

end Binary64

end SmallLisp

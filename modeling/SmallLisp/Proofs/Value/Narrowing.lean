import SmallLisp.Proofs.Number.Rational
import SmallLisp.Proofs.Operator.Results

/-!
# Numbers in their narrowest form

`Value.ofNumber` gives an integer just for the numbers that are integers of 64
bits, and this integer has the value of the number
(`ofNumber_eq_integer_iff`). The same comes from a test in binary64
(`Binary64.narrowed`), whose upper bound is rounded to `2⁶³`, so that no number
that passes it is cut to the range. A narrowest form is the number it stands
for, and is its own narrowest form (`exists_number?_ofNumber`).
-/

namespace SmallLisp

namespace Binary64

/-- Whether the number is finite and has no fractional part. -/
def isWhole : Binary64 → Bool
  | finite _ n _ => n % unitsPerOne == 0
  | _ => false

/-- Whether the first number is at most the second; never so with a NaN. -/
def numLe (x y : Binary64) : Bool := x.numLt y || x.numEq y

/-- The integer of 64 bits that is nearest. -/
def clamp (z : Int) : Int64 :=
  if z < Int64.minValue.toInt then Int64.minValue
  else if Int64.maxValue.toInt < z then Int64.maxValue
  else Int64.ofInt z

/-- The number without its fractional part, cut to the range of 64 bits. -/
def toInt64 : Binary64 → Int64
  | nan => 0
  | infinite s => if s then Int64.minValue else Int64.maxValue
  | finite s n _ => clamp (signed s (n / unitsPerOne))

/-- The narrowest form by a test in binary64, to which the ends of the range are rounded: the lower
one is allowed, the upper one is not. -/
def narrowed (x : Binary64) : Value :=
  if x.isWhole && (ofInt Int64.minValue.toInt).numLe x && x.numLt (ofInt Int64.maxValue.toInt) then
    .integer x.toInt64
  else .float x

end Binary64

namespace Value

variable {x : Binary64}

/-! ## Integers -/

theorem ofNumber_eq_integer_iff {n : Int64} :
    ofNumber x = .integer n ↔ x.value? = some (n.toInt : ℚ) := by
  rw [← Binary64.toInt?_eq_some_iff, ofNumber]
  cases x.toInt? with
  | none => exact iff_of_false nofun nofun
  | some z =>
    simp only [Option.some.injEq]
    constructor
    · intro h
      split at h
      · rename_i hz
        cases h
        have := hz.1
        have := hz.2
        rw [Int64.toInt_minValue, Int64.toInt_maxValue] at *
        exact (Int64.toInt_ofInt_of_le (by omega) (by omega)).symm
      · cases h
    · rintro rfl
      rw [if_pos ⟨n.minValue_le_toInt, n.toInt_le⟩, Int64.ofInt_toInt]

theorem ofNumber_eq_float (h : ∀ n : Int64, x.value? ≠ some (n.toInt : ℚ)) :
    ofNumber x = .float x := by
  have hne : ∀ n, ofNumber x ≠ .integer n := fun n hn => h n (ofNumber_eq_integer_iff.1 hn)
  unfold ofNumber at hne ⊢
  cases hz : x.toInt? with
  | none => rfl
  | some z =>
    simp only [hz] at hne ⊢
    split
    · rename_i hr
      exact absurd (if_pos hr) (hne _)
    · rfl

/-- A number is narrowed to an integer with its value, or is no integer of 64 bits and stays as it
is. -/
theorem ofNumber_cases (x : Binary64) :
    (∃ n : Int64, x.value? = some (n.toInt : ℚ) ∧ ofNumber x = .integer n) ∨
      (∀ n : Int64, x.value? ≠ some (n.toInt : ℚ)) ∧ ofNumber x = .float x := by
  by_cases h : ∃ n : Int64, x.value? = some (n.toInt : ℚ)
  · obtain ⟨n, hn⟩ := h
    exact .inl ⟨n, hn, ofNumber_eq_integer_iff.2 hn⟩
  · have hne := not_exists.1 h
    exact .inr ⟨hne, ofNumber_eq_float hne⟩

theorem exists_ofNumber_eq_integer_iff :
    (∃ n, ofNumber x = .integer n) ↔
      ∃ z : ℤ, x.value? = some (z : ℚ) ∧ -2 ^ 63 ≤ z ∧ z < 2 ^ 63 := by
  simp only [ofNumber_eq_integer_iff]
  constructor
  · rintro ⟨n, hn⟩
    exact ⟨n.toInt, hn, n.le_toInt, n.toInt_lt⟩
  · rintro ⟨z, hz, hlo, hhi⟩
    exact ⟨Int64.ofInt z, by rw [Int64.toInt_ofInt_of_le hlo hhi, hz]⟩

end Value

/-! ## The test in binary64 -/

namespace Binary64

variable {x y : Binary64} {a b : ℚ} {z : Int}

theorem numLe_of_value? (hx : x.value? = some a) (hy : y.value? = some b) :
    x.numLe y = true ↔ a ≤ b := by
  rw [numLe, Bool.or_eq_true_iff, numLt_of_value? hx hy, numEq_of_value? hx hy, le_iff_lt_or_eq]

theorem isWhole_iff : x.isWhole = true ↔ ∃ z, x.toInt? = some z := by
  cases x with
  | nan => exact iff_of_false nofun nofun
  | infinite s => exact iff_of_false nofun nofun
  | finite s n hn =>
    rw [isWhole, toInt?, beq_iff_eq]
    by_cases h : n % unitsPerOne = 0 <;> simp [h]

theorem toInt64_of_toInt? (h : x.toInt? = some z) : x.toInt64 = clamp z := by
  cases x with
  | nan => cases h
  | infinite s => cases h
  | finite s n hn =>
    rw [toInt?] at h
    split at h
    · rw [toInt64, Option.some.inj h]
    · cases h

theorem clamp_toInt (n : Int64) : clamp n.toInt = n := by
  have hlo := n.minValue_le_toInt
  have hhi := n.toInt_le
  rw [clamp, if_neg (by omega), if_neg (by omega), Int64.ofInt_toInt]

theorem value?_ofInt_minValue :
    (ofInt Int64.minValue.toInt).value? = some ((-2 ^ 63 : ℤ) : ℚ) := by
  rw [Int64.toInt_minValue]
  exact value?_ofInt (isExact_of_representable (by decide +kernel))

/-- The upper end of the range is no number of binary64, and is rounded up. -/
theorem value?_ofInt_maxValue :
    (ofInt Int64.maxValue.toInt).value? = some ((2 ^ 63 : ℤ) : ℚ) := by
  have h : ofInt Int64.maxValue.toInt = ofInt (2 ^ 63) := by decide +kernel
  rw [h]
  exact value?_ofInt (isExact_of_representable (by decide +kernel))

/-- What passes the test is an integer of 64 bits, so that it is not cut to the range. -/
theorem narrowed_eq_ofNumber (x : Binary64) : x.narrowed = .ofNumber x := by
  rcases Value.ofNumber_cases x with ⟨n, hn, he⟩ | ⟨hne, he⟩
  · have hint : x.toInt? = some n.toInt := toInt?_eq_some_iff.2 hn
    have hlo : (ofInt Int64.minValue.toInt).numLe x = true := by
      rw [numLe_of_value? value?_ofInt_minValue hn]
      exact_mod_cast n.le_toInt
    have hhi : x.numLt (ofInt Int64.maxValue.toInt) = true := by
      rw [numLt_of_value? hn value?_ofInt_maxValue]
      exact_mod_cast n.toInt_lt
    rw [he, narrowed, isWhole_iff.2 ⟨_, hint⟩, hlo, hhi, toInt64_of_toInt? hint, clamp_toInt]
    rfl
  · rw [he, narrowed]
    refine if_neg fun htest => ?_
    simp only [Bool.and_eq_true] at htest
    obtain ⟨⟨hwhole, hlo⟩, hhi⟩ := htest
    obtain ⟨z, hz⟩ := isWhole_iff.1 hwhole
    have hval := toInt?_eq_some_iff.1 hz
    rw [numLe_of_value? value?_ofInt_minValue hval, Int.cast_le] at hlo
    rw [numLt_of_value? hval value?_ofInt_maxValue, Int.cast_lt] at hhi
    refine hne (Int64.ofInt z) ?_
    rw [Int64.toInt_ofInt_of_le hlo hhi, hval]

end Binary64

/-! ## Back to binary64 -/

namespace Value

variable {x y : Binary64}

theorem numEq_self (h : x ≠ .nan) : x.numEq x = true := by
  cases x with
  | nan => exact absurd rfl h
  | infinite s => exact beq_self_eq_true s
  | finite s n hn => exact beq_self_eq_true _

/-- The narrowest form of a number is this number again, up to the sign of a zero, and its own
narrowest form. -/
theorem exists_number?_ofNumber (x : Binary64) :
    ∃ y, (ofNumber x).number? = some y ∧ ofNumber y = ofNumber x ∧
      (x ≠ .nan → y.numEq x = true) := by
  rcases ofNumber_cases x with ⟨n, hn, he⟩ | ⟨-, he⟩
  · have hy : (Binary64.ofInt n.toInt).value? = some (n.toInt : ℚ) :=
      Binary64.value?_ofInt (Binary64.isExact_of_value? hn)
    refine ⟨.ofInt n.toInt, by rw [he]; rfl, ?_, fun _ => ?_⟩
    · rw [he, ofNumber_eq_integer_iff, hy]
    · rw [Binary64.numEq_of_value? hy hn]
  · exact ⟨x, by rw [he]; rfl, rfl, numEq_self⟩

/-- A number is narrowed to an integer just if it is one of 64 bits, and then to the integer that it
is; otherwise it stays as it is. The test in binary64 comes to the same. What a number is narrowed
to is equal to it, and the results of arithmetic are their own narrowest forms. -/
theorem ofNumber_exact :
    (∀ x : Binary64,
      (∀ n : Int64, ofNumber x = .integer n ↔ x.value? = some (n.toInt : ℚ)) ∧
      ((∃ n, ofNumber x = .integer n) ↔
        ∃ z : ℤ, x.value? = some (z : ℚ) ∧ -2 ^ 63 ≤ z ∧ z < 2 ^ 63) ∧
      ((∀ n, ofNumber x ≠ .integer n) → ofNumber x = .float x) ∧
      x.narrowed = ofNumber x ∧
      (x ≠ .nan → ∃ y, (ofNumber x).number? = some y ∧ y.numEq x = true)) ∧
    ∀ op ∈ [Operator.add, .sub, .mul, .div], ∀ args v, op.call args = .ok v →
      ∃ y, v.number? = some y ∧ ofNumber y = v := by
  refine ⟨fun x => ⟨fun n => ofNumber_eq_integer_iff, exists_ofNumber_eq_integer_iff, fun hne => ?_,
    x.narrowed_eq_ofNumber, fun hx => ?_⟩, fun op hop args v hv => ?_⟩
  · exact ofNumber_eq_float fun n hn => hne n (ofNumber_eq_integer_iff.2 hn)
  · obtain ⟨y, hy, -, heq⟩ := exists_number?_ofNumber x
    exact ⟨y, hy, heq hx⟩
  · obtain ⟨x, rfl⟩ := Operator.yields_call_of_arithmetic hop args v hv
    obtain ⟨y, hy, hfix, -⟩ := exists_number?_ofNumber x
    exact ⟨y, hy, hfix⟩

/-- The greatest number below `2⁶³`, minus zero, and `2⁶³` as a product. -/
theorem ofNumber_exact_atEnds :
    let below := Binary64.ofInt (2 ^ 63 - 1024)
    let minusZero := Binary64.zero true
    let beyond := Binary64.ofInt (2 ^ 63)
    (below ≠ .nan ∧ ofNumber below = .integer 9223372036854774784 ∧
      ∃ y, (ofNumber below).number? = some y ∧ y.numEq below = true) ∧
    (minusZero ≠ .nan ∧ ofNumber minusZero = .integer 0 ∧
      ∃ y, (ofNumber minusZero).number? = some y ∧ y.numEq minusZero = true) ∧
    ((∀ n, ofNumber beyond ≠ .integer n) ∧ ofNumber beyond = .float beyond) ∧
    .mul ∈ [Operator.add, .sub, .mul, .div] ∧
    Operator.mul.call [.integer 4611686018427387904, .integer 2] = .ok (.float beyond) ∧
    ∃ y, (Value.float beyond).number? = some y ∧ ofNumber y = .float beyond := by
  intro below minusZero beyond
  have hbelow : below ≠ .nan := by decide +kernel
  have hzero : minusZero ≠ .nan := by decide +kernel
  have hbeyond : ∀ n, ofNumber beyond ≠ .integer n := by
    have hf : ofNumber beyond = .float beyond := by decide +kernel
    intro n hn
    rw [hf] at hn
    cases hn
  have hop : .mul ∈ [Operator.add, .sub, .mul, .div] := by decide
  have hcall : Operator.mul.call [.integer 4611686018427387904, .integer 2] =
      .ok (.float beyond) := by decide +kernel
  obtain ⟨hx, hv⟩ := ofNumber_exact
  exact ⟨⟨hbelow, by decide +kernel, (hx below).2.2.2.2 hbelow⟩,
    ⟨hzero, by decide +kernel, (hx minusZero).2.2.2.2 hzero⟩,
    ⟨hbeyond, (hx beyond).2.2.1 hbeyond⟩, hop, hcall, hv .mul hop _ _ hcall⟩

end Value

end SmallLisp

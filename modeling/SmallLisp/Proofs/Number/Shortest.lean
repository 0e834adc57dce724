import SmallLisp.Number.Shortest
import SmallLisp.Proofs.Number.Layout

/-!
# Written binary64 numbers read back

The search for the shortest numeral takes none that it has not read back
(`Binary64.reads_of_shorten?`), and the exact numeral, which it falls back to,
reads back as well (`Binary64.reads_exactDecimal`). None of them has many more
digits than the exact one, so that its exponent is read in full. So every
number is read back from its text (`Binary64.read?_text`).
-/

namespace SmallLisp.Binary64

/-- The numeral is no longer than the exact one of `± n` units, and reads back as these. -/
structure Reads (s : Bool) (n : Nat) (h : Representable n) (d : Decimal) : Prop where
  toBinary64 : d.toBinary64 = finite s n h
  exponent : -1074 ≤ d.exponent
  coefficient : d.coefficient ≤ unitDigits n + 1

variable {s : Bool} {n : Nat} {h : Representable n} {d : Decimal}

theorem reads_exactDecimal (s : Bool) (h : Representable n) : Reads s n h (exactDecimal s n) where
  toBinary64 := by
    have h10 : Nat.pow 5 1074 * unitsPerOne = 10 ^ (-(-1074 : Int)).toNat := by decide +kernel
    have hnum : (exactDecimal s n).numerator = unitDigits n * 10 ^ (-1074 : Int).toNat := rfl
    have hden : (exactDecimal s n).denominator = 10 ^ (-(-1074 : Int)).toNat := rfl
    have hmul : (exactDecimal s n).numerator * unitsPerOne =
        (exactDecimal s n).denominator * n := by
      rw [hnum, hden, ← h10, unitDigits, Int.toNat_of_nonpos (by decide), Nat.pow_zero,
        Nat.mul_one, Nat.mul_assoc, Nat.mul_comm]
    rw [Decimal.toBinary64_eq_round]
    exact round_of_eq_mul (Decimal.denominator_pos _) h hmul s
  exponent := le_rfl
  coefficient := Nat.le_succ _

/-- A numeral of the search is taken only after reading it back. -/
theorem reads_of_shorten? (h : Representable n) {dropped : Nat}
    (hd : shorten? s n dropped = some d) : Reads s n h d := by
  have hexp : (-1074 : Int) ≤ dropped - 1074 := by omega
  have hle : unitDigits n / Nat.pow 10 dropped ≤ unitDigits n := Nat.div_le_self _ _
  unfold shorten? at hd
  extract_lets unit whole below above reads at hd
  have hreads {d : Decimal} (hr : reads d = true) : d.toBinary64 = finite s n h := by
    simp only [reads] at hr
    split at hr
    · rename_i t m hm e
      obtain ⟨ht, hmn⟩ := Bool.and_eq_true_iff.1 hr
      obtain rfl := of_decide_eq_true ht
      obtain rfl := of_decide_eq_true hmn
      exact e
    · cases hr
  split at hd
  · rename_i hr
    obtain rfl := Option.some.inj hd
    exact ⟨hreads (Bool.and_eq_true_iff.1 hr).1, hexp, hle.trans (Nat.le_succ _)⟩
  split at hd
  · rename_i hr
    obtain rfl := Option.some.inj hd
    exact ⟨hreads hr, hexp, Nat.succ_le_succ hle⟩
  · cases hd

theorem reads_shortest (s : Bool) (h : Representable n) : Reads s n h (shortest s n) := by
  unfold shortest
  simp only []
  cases hf : (List.range 17).findSome? fun i =>
      shorten? s n (digitCount (unitDigits n) - (i + 1)) with
  | none => exact reads_exactDecimal s h
  | some d =>
    obtain ⟨i, -, hi⟩ := List.exists_of_findSome?_eq_some hf
    exact reads_of_shorten? h hi

/-! ## The exponent that is written -/

theorem Reads.exponent_lt (hd : Reads s n h d) (hc : d.coefficient ≠ 0) :
    d.exponent < Decimal.exponentBound := by
  by_contra he
  have hx : d.toBinary64 = infinite d.negative := by
    rw [Decimal.toBinary64, if_neg hc, if_pos (not_lt.1 he)]
  rw [hd.toBinary64] at hx
  cases hx

/-- The exact numeral of a finite number has at most 1400 digits. -/
theorem exists_unitDigits_lt (h : Representable n) : ∃ k ≤ 1400, unitDigits n + 1 < 10 ^ k := by
  refine ⟨1400, le_rfl, ?_⟩
  calc unitDigits n + 1 ≤ unitsBound * Nat.pow 5 1074 + 1 := by
        rw [unitDigits]
        exact Nat.add_le_add_right (Nat.mul_le_mul_right _ (Nat.le_of_lt h.1)) 1
    _ < 10 ^ 1400 := by decide +kernel

theorem Reads.exponentFits (hd : Reads s n h d) : d.ExponentFits := by
  intro hc
  obtain ⟨k, hk, hdigits⟩ := exists_unitDigits_lt h
  have hcoef : d.coefficient < 10 ^ k := hd.coefficient.trans_lt hdigits
  have hpos : 0 < k := by
    refine Nat.pos_of_ne_zero fun h0 => hc ?_
    rw [h0, Nat.pow_zero] at hcoef
    exact Nat.lt_one_iff.1 hcoef
  have hlen : (Numeral.digits d.coefficient).length ≤ k :=
    (Nat.length_toDigits_le_iff (by decide) hpos).2 hcoef
  have hlt := hd.exponent_lt hc
  have hle := hd.exponent
  unfold Decimal.exponentBound at hlt
  unfold Decimal.point
  omega

/-! ## Reading what is written -/

theorem isNumber_text (s : Bool) (h : Representable n) : Token.IsNumber (finite s n h).text :=
  Decimal.isNumber_text (reads_shortest s h).exponentFits

theorem exists_mem_text (s : Bool) (h : Representable n) :
    ∃ c ∈ (finite s n h).text, c = '.' ∨ c = 'e' :=
  Decimal.exists_mem_text (reads_shortest s h).exponentFits

theorem read?_text_finite (s : Bool) (h : Representable n) :
    (Decimal.read? (finite s n h).text).map Decimal.toBinary64 = some (finite s n h) := by
  have hd := reads_shortest s h
  rw [text, Decimal.read?_text hd.exponentFits, hd.toBinary64]

/-- Every number is read back from its text. -/
theorem read?_text (x : Binary64) : read? x.text = some x := by
  cases x with
  | nan => rfl
  | infinite s => cases s <;> rfl
  | finite s n h =>
    have hne {cs : List Char} (hcs : ¬ Token.IsNumber cs) : (finite s n h).text ≠ cs :=
      fun e => hcs (e ▸ isNumber_text s h)
    rw [read?, if_neg (hne (by decide)), if_neg (hne (by decide)), if_neg (hne (by decide)),
      read?_text_finite]

end SmallLisp.Binary64

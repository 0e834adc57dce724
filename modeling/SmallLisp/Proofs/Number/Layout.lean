import SmallLisp.Proofs.Number.Decimal

/-!
# Written numerals read back

A numeral is written with digits before and after a point and with an exponent,
where it has them (`Decimal.Layout`). A layout that has a point or an exponent is
a number token (`Layout.isUnsigned_text`), and reading it gives its digits and
the place of the point back (`read?_layout`). The digits and their place are
others than those of the numeral that was written, but they make up the same
magnitude (`exists_layout`). So the nearest binary64 number is read back
(`read?_text`).
-/

namespace SmallLisp.Decimal

open Token

/-! ## Layouts -/

/-- Digits before and after a point, and an exponent. -/
structure Layout where
  whole : List Char
  fraction : List Char
  exponent : Option Int

namespace Layout

/-- The point and the digits after it, if there are any. -/
def point (l : Layout) : List Char := if l.fraction = [] then [] else '.' :: l.fraction

/-- The letter `e` and the exponent, if there is one. -/
def mark (l : Layout) : List Char :=
  match l.exponent with
  | none => []
  | some k => 'e' :: Numeral.ofInt k

def text (l : Layout) : List Char := l.whole ++ (l.point ++ l.mark)

/-- The numeral that the text is read as, behind a sign. -/
def decimal (negative : Bool) (l : Layout) : Decimal :=
  ⟨negative, Nat.ofDigitChars 10 (l.whole ++ l.fraction) 0,
    l.exponent.getD 0 - l.fraction.length⟩

/-- There is a digit before the point, and there is a point or an exponent. Of the exponent all
digits count when it is read. -/
structure WellFormed (l : Layout) : Prop where
  whole : IsDigits l.whole
  fraction : ∀ c ∈ l.fraction, c.isDigit = true
  marked : l.fraction ≠ [] ∨ l.exponent ≠ none
  exponent : ∀ k ∈ l.exponent, k.natAbs < 65536

variable {l : Layout}

theorem WellFormed.isFraction_point (h : l.WellFormed) : IsFraction l.point := by
  unfold point
  split
  · exact .none
  · rename_i hne
    exact .some ⟨hne, h.fraction⟩

theorem isExponent_mark (l : Layout) : IsExponent l.mark := by
  unfold mark
  split
  · exact .none
  · rename_i k _
    unfold Numeral.ofInt
    split
    · exact .some (.inl rfl) .minus (Numeral.isDigits_digits _)
    · exact .some (.inl rfl) .none (Numeral.isDigits_digits _)

theorem stopsAt_mark (l : Layout) : StopsAt (fun c => c.isDigit || c = '.') l.mark := by
  have h := l.isExponent_mark.stopsAt (stopsAt_nil _)
  rwa [List.append_nil] at h

theorem stopsAt_mark_isDigit (l : Layout) : StopsAt Char.isDigit l.mark :=
  l.stopsAt_mark.mono fun c hc => by rw [hc]; rfl

theorem WellFormed.takeWhile_text (h : l.WellFormed) : l.text.takeWhile Char.isDigit = l.whole :=
  takeWhile_append_of_stopsAt h.whole.2 (h.isFraction_point.stopsAt l.stopsAt_mark_isDigit)

theorem WellFormed.dropWhile_text (h : l.WellFormed) :
    l.text.dropWhile Char.isDigit = l.point ++ l.mark :=
  dropWhile_append_of_stopsAt h.whole.2 (h.isFraction_point.stopsAt l.stopsAt_mark_isDigit)

theorem WellFormed.isUnsigned_text (h : l.WellFormed) : IsUnsigned l.text := by
  rw [text, ← List.append_assoc]
  exact ⟨h.whole, h.isFraction_point, l.isExponent_mark⟩

theorem WellFormed.exists_mem_text (h : l.WellFormed) : ∃ c ∈ l.text, c = '.' ∨ c = 'e' := by
  rcases h.marked with hf | he
  · refine ⟨'.', ?_, .inl rfl⟩
    rw [text, point, if_neg hf]
    simp
  · obtain ⟨k, hk⟩ := Option.ne_none_iff_exists'.1 he
    refine ⟨'e', ?_, .inr rfl⟩
    rw [text, mark, hk]
    simp

end Layout

/-! ## Reading -/

theorem le_ofDigitChars (cs : List Char) (e : Nat) : e ≤ Nat.ofDigitChars 10 cs e := by
  rw [Nat.ofDigitChars_eq_ofDigitChars_zero]
  exact (Nat.le_mul_of_pos_left e (Nat.pow_pos (by decide))).trans (Nat.le_add_right _ _)

/-- All digits count up to the bound. -/
theorem foldl_exponent {cs : List Char} {e : Nat} (h : Nat.ofDigitChars 10 cs e < 65536) :
    cs.foldl (fun e c => if e < 65536 then 10 * e + (c.toNat - '0'.toNat) else e) e =
      Nat.ofDigitChars 10 cs e := by
  induction cs generalizing e with
  | nil => rfl
  | cons c cs ih =>
    have he := (le_ofDigitChars (c :: cs) e).trans_lt h
    rw [Nat.ofDigitChars_cons] at h ⊢
    rw [List.foldl_cons, if_pos he, ih h]

theorem exponentOfDigits_digits {n : Nat} (h : n < 65536) :
    exponentOfDigits (Numeral.digits n) = n := by
  have hn : Nat.ofDigitChars 10 (Numeral.digits n) 0 = n := Nat.ofDigitChars_ten_toDigits
  rw [exponentOfDigits, foldl_exponent (hn.trans_lt h), hn]

theorem readExponent?_mark {l : Layout} (h : ∀ k ∈ l.exponent, k.natAbs < 65536) :
    readExponent? l.mark = some (l.exponent.getD 0) := by
  unfold Layout.mark
  split
  · rename_i he
    rw [he]
    rfl
  · rename_i k he
    have hd := Numeral.isDigits_digits k.natAbs
    simp only [readExponent?, Numeral.splitSign_ofInt, exponentOfDigits_digits (h k he)]
    rw [if_pos ⟨.inl trivial, hd.1, List.all_eq_true.2 hd.2⟩, he]
    exact congrArg some (Numeral.sign_natAbs k)

theorem splitFraction_layout {l : Layout} (h : l.WellFormed) :
    splitFraction (l.point ++ l.mark) = (l.fraction, l.mark) := by
  unfold Layout.point
  split
  · rename_i hf
    rw [List.nil_append, hf]
    unfold splitFraction
    split
    · rename_i e
      exact absurd (l.stopsAt_mark '.' (by rw [e]; rfl)) (by decide)
    · rfl
  · rw [List.cons_append, splitFraction,
      takeWhile_append_of_stopsAt h.fraction l.stopsAt_mark_isDigit,
      dropWhile_append_of_stopsAt h.fraction l.stopsAt_mark_isDigit]

theorem splitSign_layout {l : Layout} (h : l.WellFormed) (negative : Bool) :
    Numeral.splitSign (if negative then '-' :: l.text else l.text) = (negative, l.text) := by
  cases negative with
  | true => rfl
  | false =>
    obtain ⟨d, rest, ht, hd⟩ := h.isUnsigned_text.exists_cons
    rw [ht]
    exact Numeral.splitSign_cons hd rest

/-- A layout behind a sign is read as its digits and their place. -/
theorem read?_layout {l : Layout} (h : l.WellFormed) (negative : Bool) :
    read? (if negative then '-' :: l.text else l.text) = some (l.decimal negative) := by
  simp only [read?, splitSign_layout h, h.takeWhile_text, h.dropWhile_text,
    splitFraction_layout h]
  rw [if_neg fun hn => h.whole.1 hn.1, readExponent?_mark h.exponent]
  rfl

/-! ## Writing -/

theorem ofDigitChars_zeros_append (n : Nat) (ds : List Char) :
    Nat.ofDigitChars 10 (List.replicate n '0' ++ ds) 0 = Nat.ofDigitChars 10 ds 0 := by
  rw [Nat.ofDigitChars_append, Nat.ofDigitChars_replicate_zero, Nat.mul_zero]

theorem ofDigitChars_append_zeros (ds : List Char) (n : Nat) :
    Nat.ofDigitChars 10 (ds ++ List.replicate n '0') 0 = 10 ^ n * Nat.ofDigitChars 10 ds 0 := by
  rw [Nat.ofDigitChars_append, Nat.ofDigitChars_replicate_zero]

theorem isDigit_of_mem_replicate {n : Nat} {c : Char} (h : c ∈ List.replicate n '0') :
    c.isDigit = true := by
  rw [List.eq_of_mem_replicate h]
  rfl

/-- The layout is well-formed and has this text and this magnitude. -/
structure Layout.Writes (l : Layout) (body : List Char) (m : ℚ) : Prop where
  wellFormed : l.WellFormed
  text : l.text = body
  magnitude : ∀ negative, (l.decimal negative).magnitude = m

variable {ds : List Char}

theorem Layout.Writes.of_eq {l : Layout} {body : List Char} {m m' : ℚ} (h : l.Writes body m)
    (e : m = m') : l.Writes body m' := e ▸ h

theorem isDigits_zero : IsDigits ['0'] := ⟨List.cons_ne_nil _ _, List.forall_mem_singleton.2 rfl⟩

theorem isDigits_append {as bs : List Char} (hne : as ++ bs ≠ [])
    (ha : ∀ c ∈ as, c.isDigit = true) (hb : ∀ c ∈ bs, c.isDigit = true) : IsDigits (as ++ bs) :=
  ⟨hne, fun c hc => (List.mem_append.1 hc).elim (ha c) (hb c)⟩

/-- Digits on both sides of a point. -/
theorem writes_point {ws fs : List Char} (hw : IsDigits ws) (hf : IsDigits fs) :
    (Layout.mk ws fs none).Writes (ws ++ '.' :: fs)
      (Nat.ofDigitChars 10 (ws ++ fs) 0 * 10 ^ (-(fs.length : Int))) where
  wellFormed := ⟨hw, hf.2, .inl hf.1, nofun⟩
  text := by
    rw [Layout.text, Layout.point, if_neg hf.1]
    exact congrArg _ (List.append_nil _)
  magnitude s := by rw [magnitude, Layout.decimal, Option.getD_none, zero_sub]

/-- Zeros stand between the point and the digits. -/
theorem exists_writes_ahead (h : IsDigits ds) (n : Nat) :
    ∃ l : Layout, l.Writes ('0' :: '.' :: (List.replicate n '0' ++ ds))
      (Nat.ofDigitChars 10 ds 0 * 10 ^ (-(n : Int) - ds.length)) := by
  have hf : IsDigits (List.replicate n '0' ++ ds) :=
    isDigits_append (List.append_ne_nil_of_right_ne_nil _ h.1)
      (fun c => isDigit_of_mem_replicate) h.2
  have hv : Nat.ofDigitChars 10 (['0'] ++ (List.replicate n '0' ++ ds)) 0 =
      Nat.ofDigitChars 10 ds 0 :=
    (ofDigitChars_zeros_append 1 _).trans (ofDigitChars_zeros_append n ds)
  have he : -((List.replicate n '0' ++ ds).length : Int) = -n - ds.length := by
    rw [List.length_append, List.length_replicate]
    omega
  refine ⟨_, (writes_point isDigits_zero hf).of_eq ?_⟩
  rw [hv, he]

/-- The point stands between the digits. -/
theorem exists_writes_inside (h : IsDigits ds) {n : Nat} (h0 : n ≠ 0) (hn : n < ds.length) :
    ∃ l : Layout, l.Writes (ds.take n ++ '.' :: ds.drop n)
      (Nat.ofDigitChars 10 ds 0 * 10 ^ ((n : Int) - ds.length)) := by
  have hw : IsDigits (ds.take n) :=
    ⟨fun e => (List.take_eq_nil_iff.1 e).elim h0 h.1, fun c hc => h.2 c (List.mem_of_mem_take hc)⟩
  have hf : IsDigits (ds.drop n) :=
    ⟨fun e => Nat.not_le.2 hn (List.drop_eq_nil_iff.1 e), fun c hc =>
      h.2 c (List.mem_of_mem_drop hc)⟩
  have he : -((ds.drop n).length : Int) = n - ds.length := by
    rw [List.length_drop]
    omega
  refine ⟨_, (writes_point hw hf).of_eq ?_⟩
  rw [List.take_append_drop, he]

/-- Zeros stand between the digits and the point. -/
theorem exists_writes_behind (h : IsDigits ds) (n : Nat) :
    ∃ l : Layout, l.Writes (ds ++ List.replicate n '0' ++ ['.', '0'])
      (Nat.ofDigitChars 10 ds 0 * 10 ^ n) := by
  have hw : IsDigits (ds ++ List.replicate n '0') :=
    isDigits_append (List.append_ne_nil_of_left_ne_nil h.1 _) h.2
      (fun c => isDigit_of_mem_replicate)
  have hv : Nat.ofDigitChars 10 (ds ++ List.replicate n '0' ++ ['0']) 0 =
      Nat.ofDigitChars 10 ds 0 * 10 ^ n * 10 := by
    have := ofDigitChars_append_zeros ds (n + 1)
    rwa [List.replicate_succ', ← List.append_assoc, Nat.pow_succ, Nat.mul_comm,
      ← Nat.mul_assoc] at this
  refine ⟨_, (writes_point hw isDigits_zero).of_eq ?_⟩
  rw [hv]
  push_cast
  exact mul_inv_cancel_right₀ (by decide) _

theorem exists_writes_positional (h : IsDigits ds) (p : Int) :
    ∃ l : Layout, l.Writes (positional ds p) (Nat.ofDigitChars 10 ds 0 * 10 ^ (p - ds.length)) := by
  unfold positional
  split
  · exact exists_writes_ahead h 0
  · rename_i n hn
    split
    · rename_i hle
      obtain ⟨k, rfl⟩ := Nat.exists_eq_add_of_le hle
      have hexp : (10 : ℚ) ^ (Int.ofNat (ds.length + k) - ds.length) = 10 ^ k := by
        rw [← zpow_natCast]
        congr 1
        exact add_sub_cancel_left (ds.length : Int) k
      rw [List.take_of_length_le hle, Nat.add_sub_cancel_left, hexp]
      exact exists_writes_behind h k
    · rename_i hlt
      rw [Nat.sub_eq_zero_of_le (Nat.le_of_not_le hlt), List.replicate_zero, List.append_nil]
      exact exists_writes_inside h hn (Nat.lt_of_not_le hlt)
  · exact exists_writes_ahead h _

theorem exists_writes_scientific (h : IsDigits ds) {p : Int} (hp : (p - 1).natAbs < 65536) :
    ∃ l : Layout, l.Writes (scientific ds p) (Nat.ofDigitChars 10 ds 0 * 10 ^ (p - ds.length)) := by
  obtain ⟨c, cs, rfl, hc⟩ := h.exists_cons
  refine ⟨⟨[c], cs, some (p - 1)⟩, ⟨⟨List.cons_ne_nil _ _, List.forall_mem_singleton.2 hc⟩,
    fun d hd => h.2 d (List.mem_cons_of_mem c hd), .inr (Option.some_ne_none _), ?_⟩, ?_, ?_⟩
  · rintro k hk
    cases hk
    exact hp
  · cases cs <;> simp [Layout.text, Layout.point, Layout.mark, scientific]
  · intro s
    have hexp : p - 1 - cs.length = p - (c :: cs).length := by
      rw [List.length_cons]
      omega
    rw [← hexp]
    rfl

/-! ## Significant digits -/

variable {d : Decimal}

/-- Behind the significant digits of a coefficient there are only zeros. -/
theorem exists_digits_eq (d : Decimal) :
    ∃ n, Numeral.digits d.coefficient = d.significant ++ List.replicate n '0' := by
  refine ⟨((Numeral.digits d.coefficient).reverse.takeWhile (· = '0')).length, ?_⟩
  have hz : (Numeral.digits d.coefficient).reverse.takeWhile (· = '0') =
      List.replicate ((Numeral.digits d.coefficient).reverse.takeWhile (· = '0')).length '0' :=
    List.eq_replicate_iff.2 ⟨rfl, fun c hc => by simpa using List.mem_takeWhile_imp hc⟩
  rw [significant, ← List.reverse_replicate, ← hz, ← List.reverse_append,
    List.takeWhile_append_dropWhile, List.reverse_reverse]

/-- The magnitude from the significant digits and the place of the point. -/
theorem magnitude_eq_significant (d : Decimal) :
    d.magnitude = Nat.ofDigitChars 10 d.significant 0 * 10 ^ (d.point - d.significant.length) := by
  obtain ⟨n, hn⟩ := exists_digits_eq d
  have hc : d.coefficient = 10 ^ n * Nat.ofDigitChars 10 d.significant 0 := by
    rw [← ofDigitChars_append_zeros, ← hn]
    exact Nat.ofDigitChars_ten_toDigits.symm
  have hp : d.point - d.significant.length = n + d.exponent := by
    rw [point, hn, List.length_append, List.length_replicate]
    omega
  have h10 : (10 : ℚ) ≠ 0 := by decide
  rw [magnitude, hc, hp, zpow_add₀ h10, zpow_natCast]
  push_cast
  rw [mul_assoc, mul_left_comm]

theorem isDigits_significant (hc : d.coefficient ≠ 0) : IsDigits d.significant := by
  obtain ⟨n, hn⟩ := exists_digits_eq d
  refine ⟨fun e => hc ?_, fun c h => ?_⟩
  · have hz : Nat.ofDigitChars 10 (Numeral.digits d.coefficient) 0 = d.coefficient :=
      Nat.ofDigitChars_ten_toDigits
    rw [← hz, hn, e, ofDigitChars_append_zeros]
    rfl
  · exact Numeral.isDigit_of_mem_digits (hn ▸ List.mem_append_left _ h)

/-- The exponent that a numeral is written with is read in full. -/
def ExponentFits (d : Decimal) : Prop := d.coefficient ≠ 0 → (d.point - 1).natAbs < 65536

/-- A numeral is written as a layout of its magnitude behind its sign. -/
theorem exists_layout (h : d.ExponentFits) :
    ∃ l : Layout, l.WellFormed ∧ d.text = (if d.negative then '-' :: l.text else l.text) ∧
      ∀ negative, (l.decimal negative).magnitude = d.magnitude := by
  have hbody : ∃ l : Layout, l.Writes
      (if d.coefficient = 0 then ['0', '.', '0']
      else if -3 ≤ d.point ∧ d.point ≤ 16 then positional d.significant d.point
      else scientific d.significant d.point) d.magnitude := by
    split
    · rename_i hc
      refine ⟨_, (writes_point isDigits_zero isDigits_zero).of_eq ?_⟩
      rw [magnitude, hc, Nat.cast_zero, zero_mul]
      exact zero_mul _
    · rename_i hc
      rw [magnitude_eq_significant]
      split
      · exact exists_writes_positional (isDigits_significant hc) d.point
      · exact exists_writes_scientific (isDigits_significant hc) (h hc)
  obtain ⟨l, hl⟩ := hbody
  refine ⟨l, hl.wellFormed, ?_, hl.magnitude⟩
  rw [hl.text]
  rfl

/-! ## Reading what is written -/

/-- What is written is a number token. -/
theorem isNumber_text (h : d.ExponentFits) : IsNumber d.text := by
  obtain ⟨l, hl, ht, -⟩ := exists_layout h
  rw [ht]
  split
  · exact .negative hl.isUnsigned_text
  · exact .unsigned hl.isUnsigned_text

/-- A point or an exponent tells it from an integer. -/
theorem exists_mem_text (h : d.ExponentFits) : ∃ c ∈ d.text, c = '.' ∨ c = 'e' := by
  obtain ⟨l, hl, ht, -⟩ := exists_layout h
  obtain ⟨c, hc, he⟩ := hl.exists_mem_text
  refine ⟨c, ?_, he⟩
  rw [ht]
  split
  · exact List.mem_cons_of_mem _ hc
  · exact hc

/-- Reading it gives the same binary64 number. -/
theorem read?_text (h : d.ExponentFits) : (read? d.text).map toBinary64 = some d.toBinary64 := by
  obtain ⟨l, hl, ht, hm⟩ := exists_layout h
  rw [ht, read?_layout hl]
  exact congrArg some (toBinary64_congr rfl (hm d.negative))

end SmallLisp.Decimal

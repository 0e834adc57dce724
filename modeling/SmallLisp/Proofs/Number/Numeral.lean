import SmallLisp.Number.Numeral
import SmallLisp.Proofs.Token.Grammar

/-!
# Written integers read back

What `Numeral.ofInt` writes is digits behind an optional minus sign
(`Numeral.isNumber_ofInt`), and `Numeral.readInt64?` reads it as the same number.
A text with any other character is no integer
(`Numeral.readInt64?_eq_none_of_mem`).
-/

namespace SmallLisp.Numeral

theorem digits_ne_nil (n : Nat) : digits n ≠ [] := Nat.toDigits_ne_nil

theorem isDigit_of_mem_digits {n : Nat} {c : Char} (h : c ∈ digits n) : c.isDigit = true :=
  Nat.isDigit_of_mem_toDigits (by decide) (by decide) h

theorem isDigits_digits (n : Nat) : Token.IsDigits (digits n) :=
  ⟨digits_ne_nil n, fun _ hc => isDigit_of_mem_digits hc⟩

theorem isNumber_ofInt (n : Int) : Token.IsNumber (ofInt n) := by
  have hd : Token.IsUnsigned (digits n.natAbs) := by
    have hu := Token.IsUnsigned.mk (isDigits_digits n.natAbs) .none .none
    rwa [List.append_nil, List.append_nil] at hu
  unfold ofInt
  split
  · exact .negative hd
  · exact .unsigned hd

theorem readNat?_digits (n : Nat) : readNat? (digits n) = some n := by
  have hd := isDigits_digits n
  rw [readNat?, if_pos ⟨hd.1, List.all_eq_true.2 hd.2⟩]
  exact congrArg some Nat.ofDigitChars_ten_toDigits

/-- What starts with a digit has no sign in front. -/
theorem splitSign_cons {c : Char} (h : c.isDigit = true) (cs : List Char) :
    splitSign (c :: cs) = (false, c :: cs) := by
  unfold splitSign
  split
  · rename_i e
    rw [(List.cons.inj e).1] at h
    exact absurd h (by decide)
  · rename_i e
    rw [(List.cons.inj e).1] at h
    exact absurd h (by decide)
  · rfl

theorem splitSign_digits (n : Nat) : splitSign (digits n) = (false, digits n) := by
  obtain ⟨c, cs, h⟩ := List.exists_cons_of_ne_nil (digits_ne_nil n)
  rw [h]
  exact splitSign_cons (isDigit_of_mem_digits (n := n) (h ▸ List.mem_cons_self)) cs

theorem splitSign_ofInt (n : Int) : splitSign (ofInt n) = (decide (n < 0), digits n.natAbs) := by
  unfold ofInt
  split
  · rename_i h
    rw [decide_eq_true h]
    rfl
  · rename_i h
    rw [decide_eq_false h, splitSign_digits]

/-- An integer is its sign and its magnitude. -/
theorem sign_natAbs (n : Int) : (if decide (n < 0) then -(n.natAbs : Int) else n.natAbs) = n := by
  by_cases h : n < 0
  · rw [if_pos (decide_eq_true h)]
    omega
  · rw [if_neg (mt of_decide_eq_true h)]
    omega

theorem readInt?_ofInt (n : Int) : readInt? (ofInt n) = some n := by
  rw [readInt?, splitSign_ofInt, readNat?_digits]
  exact congrArg some (sign_natAbs n)

theorem readInt64?_ofInt (n : Int64) : readInt64? (ofInt n.toInt) = some n := by
  have hr : Int64.minValue.toInt ≤ n.toInt ∧ n.toInt ≤ Int64.maxValue.toInt :=
    ⟨n.minValue_le_toInt, n.toInt_le⟩
  rw [readInt64?, readInt?_ofInt, Option.bind_some, if_pos hr, Int64.ofInt_toInt]

/-! ## Texts that are no integers -/

theorem mem_splitSign {c : Char} {cs : List Char} (h : c ∈ cs) (hp : c ≠ '+') (hm : c ≠ '-') :
    c ∈ (splitSign cs).2 := by
  unfold splitSign
  split
  · exact (List.mem_cons.1 h).resolve_left hm
  · exact (List.mem_cons.1 h).resolve_left hp
  · exact h

theorem readInt64?_eq_none_of_mem {c : Char} {cs : List Char} (h : c ∈ cs)
    (hd : c.isDigit = false) (hp : c ≠ '+') (hm : c ≠ '-') : readInt64? cs = none := by
  have hn : readNat? (splitSign cs).2 = none := by
    refine if_neg fun hall => ?_
    rw [List.all_eq_true.1 hall.2 c (mem_splitSign h hp hm)] at hd
    cases hd
  rw [readInt64?, readInt?, hn]
  rfl

end SmallLisp.Numeral

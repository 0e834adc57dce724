/-!
# Whole numbers in decimal

Integers are read from an optional sign and digits (`Numeral.readInt?`, and
`Numeral.readInt64?` within 64 bits), and written with a minus sign if they are
negative (`Numeral.ofInt`). Digits are the ten of ASCII.
-/

namespace SmallLisp.Numeral

/-- One or more digits and nothing else. -/
def readNat? (cs : List Char) : Option Nat :=
  if cs ≠ [] ∧ cs.all Char.isDigit then some (Nat.ofDigitChars 10 cs 0) else none

/-- Whether the text starts with a minus sign, and the text after its sign. -/
def splitSign : List Char → Bool × List Char
  | '-' :: cs => (true, cs)
  | '+' :: cs => (false, cs)
  | cs => (false, cs)

/-- Digits after an optional sign. -/
def readInt? (cs : List Char) : Option Int :=
  (readNat? (splitSign cs).2).map fun n => if (splitSign cs).1 then -n else n

/-- Digits after an optional sign, within the range of 64 bits. -/
def readInt64? (cs : List Char) : Option Int64 :=
  (readInt? cs).bind fun n =>
    if Int64.minValue.toInt ≤ n ∧ n ≤ Int64.maxValue.toInt then some (Int64.ofInt n) else none

/-- The decimal digits of a natural number. -/
def digits (n : Nat) : List Char := Nat.toDigits 10 n

/-- An integer in decimal, with a minus sign if it is negative. -/
def ofInt (n : Int) : List Char := if n < 0 then '-' :: digits n.natAbs else digits n.natAbs

end SmallLisp.Numeral

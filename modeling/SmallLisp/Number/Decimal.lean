import SmallLisp.Number.Binary64
import SmallLisp.Number.Numeral

/-!
# Decimal numerals

A decimal numeral (`Decimal`) is a coefficient and a power of ten. It is read
with an optional point and exponent (`Decimal.read?`), has a nearest binary64
number (`Decimal.toBinary64`) and is written positionally or with an exponent
(`Decimal.text`).
-/

namespace SmallLisp

/-- The number `± coefficient · 10 ^ exponent`. -/
structure Decimal where
  negative : Bool
  coefficient : Nat
  exponent : Int
deriving DecidableEq, Repr

namespace Decimal

/-- The digits after a point, if the text starts with one, and what follows them. -/
def splitFraction : List Char → List Char × List Char
  | '.' :: cs => (cs.takeWhile Char.isDigit, cs.dropWhile Char.isDigit)
  | cs => ([], cs)

/-- An exponent from its digits. Digits after it has reached `2¹⁶` no longer count. -/
def exponentOfDigits (cs : List Char) : Nat :=
  cs.foldl (fun e c => if e < 65536 then 10 * e + (c.toNat - '0'.toNat) else e) 0

/-- The exponent a numeral ends with, zero if there is none. -/
def readExponent? : List Char → Option Int
  | [] => some 0
  | c :: cs =>
    let (negative, digits) := Numeral.splitSign cs
    if (c = 'e' ∨ c = 'E') ∧ digits ≠ [] ∧ digits.all Char.isDigit then
      some (if negative then -exponentOfDigits digits else exponentOfDigits digits)
    else none

/-- A numeral: an optional sign, digits, of which some may follow a point, and an optional
exponent. -/
def read? (cs : List Char) : Option Decimal :=
  let (negative, cs) := Numeral.splitSign cs
  let whole := cs.takeWhile Char.isDigit
  let (fraction, cs) := splitFraction (cs.dropWhile Char.isDigit)
  if whole = [] ∧ fraction = [] then none
  else (readExponent? cs).map fun e =>
    ⟨negative, Nat.ofDigitChars 10 (whole ++ fraction) 0, e - fraction.length⟩

/-- Powers of ten from this one on are beyond the range of binary64 numbers, at both ends. -/
def exponentBound : Int := 400

/-- The nearest binary64 number. A coefficient has at most one digit for each of its bits, so
numerals outside `exponentBound` are settled without writing their powers of ten out. -/
def toBinary64 (d : Decimal) : Binary64 :=
  if d.coefficient = 0 then .zero d.negative
  else if exponentBound ≤ d.exponent then .infinite d.negative
  else if d.exponent + d.coefficient.log2 + 1 ≤ -exponentBound then .zero d.negative
  else match d.exponent with
    | .ofNat e => .round d.negative (d.coefficient * Nat.pow 10 e * Binary64.unitsPerOne) 1
    | .negSucc e => .round d.negative (d.coefficient * Binary64.unitsPerOne) (Nat.pow 10 (e + 1))

/-! ## Writing -/

/-- The significant digits, without zeros at the end. -/
def significant (d : Decimal) : List Char :=
  ((Numeral.digits d.coefficient).reverse.dropWhile (· = '0')).reverse

/-- The place of the point: the number is `0.ddd · 10 ^ point`, where `ddd` are the significant
digits. -/
def point (d : Decimal) : Int := (Numeral.digits d.coefficient).length + d.exponent

/-- Digits around a point, at least one on each side. -/
def positional (ds : List Char) : Int → List Char
  | .ofNat 0 => '0' :: '.' :: ds
  | .ofNat p =>
    ds.take p ++ List.replicate (p - ds.length) '0' ++
      '.' :: if ds.length ≤ p then ['0'] else ds.drop p
  | .negSucc p => '0' :: '.' :: List.replicate (p + 1) '0' ++ ds

/-- One digit before the point, and the power of ten. -/
def scientific (ds : List Char) (p : Int) : List Char :=
  ds.take 1 ++ (if ds.length ≤ 1 then [] else '.' :: ds.drop 1) ++ 'e' :: Numeral.ofInt (p - 1)

/-- Positional from `10⁻⁴` up to below `10¹⁶`, and zero; otherwise with an exponent. -/
def text (d : Decimal) : List Char :=
  let body :=
    if d.coefficient = 0 then ['0', '.', '0']
    else if -3 ≤ d.point ∧ d.point ≤ 16 then positional d.significant d.point
    else scientific d.significant d.point
  if d.negative then '-' :: body else body

end Decimal

end SmallLisp

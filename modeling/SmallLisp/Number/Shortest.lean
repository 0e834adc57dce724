import SmallLisp.Number.Decimal

/-!
# The written form of binary64 numbers

A finite number is written with the fewest digits that read back as the same
number, and of the numerals with that many digits the nearest one
(`Binary64.shortest`). A numeral is taken only after reading it back, and the
exact numeral of all digits, which always reads back, stands behind the search.
-/

namespace SmallLisp

namespace Binary64

/-- The digits of `n` units: these are `unitDigits n · 10⁻¹⁰⁷⁴`, exactly. -/
def unitDigits (n : Nat) : Nat := n * Nat.pow 5 1074

/-- The exact numeral of `± n` units. -/
def exactDecimal (negative : Bool) (n : Nat) : Decimal := ⟨negative, unitDigits n, -1074⟩

/-- The number of decimal digits, counted sixteen at a time. -/
def digitCount (n : Nat) : Nat :=
  if n < 10000000000000000 then (Numeral.digits n).length
  else 16 + digitCount (n / 10000000000000000)
termination_by n
decreasing_by omega

/-- The exact numeral of `± n` units without its last `dropped` digits, or the one above that,
whichever reads back as `± n` units; of two that do the nearer, and at the same distance the
larger. -/
def shorten? (negative : Bool) (n dropped : Nat) : Option Decimal :=
  let unit := Nat.pow 10 dropped
  let whole := unitDigits n / unit
  let below : Decimal := ⟨negative, whole, dropped - 1074⟩
  let above : Decimal := ⟨negative, whole + 1, dropped - 1074⟩
  let reads (d : Decimal) : Bool := match d.toBinary64 with
    | finite s m _ => s = negative && m = n
    | _ => false
  if reads below && (2 * (unitDigits n % unit) < unit || !reads above) then some below
  else if reads above then some above
  else none

/-- The shortest numeral that reads back as `± n` units; seventeen digits always suffice. -/
def shortest (negative : Bool) (n : Nat) : Decimal :=
  let count := digitCount (unitDigits n)
  ((List.range 17).findSome? fun i => shorten? negative n (count - (i + 1))).getD
    (exactDecimal negative n)

/-- The written form of a number. -/
def text : Binary64 → List Char
  | nan => ['N', 'a', 'N']
  | infinite s => if s then ['-', 'i', 'n', 'f'] else ['i', 'n', 'f']
  | finite s n _ => (shortest s n).text

/-- Reads a written form, or any decimal numeral as the nearest number. -/
def read? (cs : List Char) : Option Binary64 :=
  if cs = nan.text then some nan
  else if cs = (infinite true).text then some (infinite true)
  else if cs = (infinite false).text then some (infinite false)
  else (Decimal.read? cs).map Decimal.toBinary64

end Binary64

end SmallLisp

/-
The shortest decimal that reads back as a given binary64 number. A decimal reads back when it lies
in the interval of reals that round to the number; with `1, 2, … 17` digits the two neighbours of
the number on the grid of that many digits are tried, and the nearer one of the first hit is taken.
-/
import TemplateEngine.Number.Binary64

namespace TemplateEngine.Number

/-- The decimal `0.d₁d₂… · 10 ^ point`. -/
structure Decimal where
  digits : List Char
  point : Int
  deriving DecidableEq, Repr

/-- Numerator and denominator of `num / den · 10 ^ e`. -/
def scaleDecimal (num den : Nat) (e : Int) : Nat × Nat :=
  if 0 ≤ e then (num * Nat.pow 10 e.toNat, den) else (num, den * Nat.pow 10 (-e).toNat)

/-- The exponent `p` with `10 ^ (p - 1) ≤ num / den < 10 ^ p`. -/
def decade (num den : Nat) : Int :=
  if den ≤ num then (Nat.toDigits 10 (num / den)).length
  else 1 - ((Nat.toDigits 10 ((den + num - 1) / num - 1)).length : Int)

/-- Whether the value `num / den` rounds to `mantissa · 2 ^ exponent`: it lies between the midpoints
to the neighbours, which belong to an even mantissa. Below a power of two the neighbour is nearer. -/
def roundsTo (mantissa : Nat) (exponent : Int) (num den : Nat) : Bool :=
  let (n, d) := scaleBinary num den (2 - exponent)
  let low := if mantissa == Nat.pow 2 52 && exponent != -1074 then 4 * mantissa - 1 else 4 * mantissa - 2
  let high := 4 * mantissa + 2
  if mantissa % 2 == 0 then low * d ≤ n && n ≤ high * d else low * d < n && n < high * d

/-- Drops the zeros at the end of a row of digits. -/
def dropFinalZeros (ds : List Char) : List Char :=
  (ds.reverse.dropWhile (· == '0')).reverse

/-- The decimal of the digits of `n` on the grid of `count` digits at `point`. -/
def decimalOn (n count : Nat) (point : Int) : Decimal :=
  let ds := Nat.toDigits 10 n
  ⟨dropFinalZeros ds, point + (ds.length - count)⟩

/-- The nearer one of the two neighbours with `count` digits that read back. -/
def neighbour? (mantissa : Nat) (exponent : Int) (num den : Nat) (point : Int) (count : Nat) :
    Option Decimal :=
  let (n, d) := scaleDecimal num den (count - point)
  let low := n / d
  let reads (k : Nat) : Bool :=
    let (n', d') := scaleDecimal k 1 (point - count)
    roundsTo mantissa exponent n' d'
  match 0 < low && reads low, reads (low + 1) with
  | true, true => some (decimalOn (roundHalfEven n d) count point)
  | true, false => some (decimalOn low count point)
  | false, true => some (decimalOn (low + 1) count point)
  | false, false => none

/-- The shortest decimal that reads back as `mantissa · 2 ^ exponent`, which is not zero. -/
def shortest (mantissa : Nat) (exponent : Int) : Decimal :=
  let (num, den) := scaleBinary mantissa 1 exponent
  let point := decade num den
  ((List.range 17).findSome? fun i => neighbour? mantissa exponent num den point (i + 1)).getD
    (decimalOn mantissa (Nat.toDigits 10 mantissa).length point)

end TemplateEngine.Number

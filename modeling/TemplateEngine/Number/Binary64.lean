/-
Binary64 numbers as exact values: the finite ones are `± mantissa · 2 ^ exponent`, and `nearest`
rounds a quotient of natural numbers to the nearest of them, a tie to the even mantissa.
-/
namespace TemplateEngine.Number

/-- What a binary64 number denotes. -/
inductive Denotation where
  | nan
  | infinite (negative : Bool)
  | finite (negative : Bool) (mantissa : Nat) (exponent : Int)
  deriving DecidableEq, Repr

/-- Reads sign, exponent and mantissa off the bits of a number. -/
def denotation (x : Float) : Denotation :=
  let bits := x.toBits.toNat
  let negative := bits / Nat.pow 2 63 == 1
  let biased : Nat := bits / Nat.pow 2 52 % 2048
  let fraction := bits % Nat.pow 2 52
  if biased == 2047 then
    if fraction == 0 then .infinite negative else .nan
  else if biased == 0 then .finite negative fraction (-1074)
  else .finite negative (Nat.pow 2 52 + fraction) ((biased : Int) - 1075)

/-- The quotient rounded to the nearest natural number, a half to the even neighbour. -/
def roundHalfEven (num den : Nat) : Nat :=
  let q := num / den
  let twice := 2 * (num % den)
  if twice < den || (twice == den && q % 2 == 0) then q else q + 1

/-- Numerator and denominator of `num / den · 2 ^ e`. -/
def scaleBinary (num den : Nat) (e : Int) : Nat × Nat :=
  if 0 ≤ e then (num * Nat.pow 2 e.toNat, den) else (num, den * Nat.pow 2 (-e).toNat)

/-- The exponent `e` with `2 ^ e ≤ num / den < 2 ^ (e + 1)`. -/
def binade (num den : Nat) : Int :=
  let e : Int := (num.log2 : Int) - den.log2
  let (n, d) := scaleBinary num den (-e)
  if d ≤ n then e else e - 1

/-- The bits of the largest finite number, plus one: the bits of infinity. -/
def infinityBits : Nat := 2047 * Nat.pow 2 52

/-- The magnitude bits of the binary64 number nearest to `num / den`; what is too large becomes
infinity. A carry of the rounding runs into the exponent field, as it should. -/
def nearestBits (num den : Nat) : Nat :=
  if num == 0 then 0
  else
    let e := max (binade num den - 52) (-1074)
    let (n, d) := scaleBinary num den (-e)
    min infinityBits ((e + 1074).toNat * Nat.pow 2 52 + roundHalfEven n d)

/-- The binary64 number of a sign and magnitude bits. -/
def ofMagnitudeBits (negative : Bool) (bits : Nat) : Float :=
  Float.ofBits (UInt64.ofNat ((if negative then Nat.pow 2 63 else 0) + bits))

/-- The binary64 number nearest to `± num / den`. -/
def nearest (negative : Bool) (num den : Nat) : Float :=
  ofMagnitudeBits negative (nearestBits num den)

/-- The binary64 number nearest to an integer, unless it is beyond the finite ones. -/
def floatOfInt? (n : Int) : Option Float :=
  let bits := nearestBits n.natAbs 1
  if bits == infinityBits then none else some (ofMagnitudeBits (n < 0) bits)

/-- The integer part of a finite number: its fraction is cut off. -/
def truncate (negative : Bool) (mantissa : Nat) (exponent : Int) : Int :=
  let (n, d) := scaleBinary mantissa 1 exponent
  if negative then -(n / d : Nat) else (n / d : Nat)

end TemplateEngine.Number

/-
Arithmetic of values. Truth values count as the integers 0 and 1; an operation on two integers is
exact, and one with a floating point operand is done in floating point. Comparisons between an
integer and a floating point number compare the exact values.
-/
import TemplateEngine.Fault
import TemplateEngine.Number.Binary64
import TemplateEngine.Value.Basic

namespace TemplateEngine

open TemplateEngine.Number

/-- A number of a template. -/
inductive Numeric where
  | int (n : Int)
  | float (x : Float)

namespace Numeric

/-- The number as a value. -/
def toValue : Numeric → Value
  | int n => .int n
  | float x => .float x

/-- The nearest floating point number; integers beyond the finite ones have none. -/
def toFloat : Numeric → Except Fault Float
  | int n => match floatOfInt? n with
    | some x => .ok x
    | none => .error (.overflow .float)
  | float x => .ok x

/-- The whole part of a number. -/
def toInt : Numeric → Except Fault Int
  | int n => .ok n
  | float x => match denotation x with
    | .nan => .error (.value .noNumber)
    | .infinite _ => .error (.overflow .infinity)
    | .finite negative mantissa exponent => .ok (truncate negative mantissa exponent)

/-- Numerator and denominator of a finite number. -/
def ratio (negative : Bool) (mantissa : Nat) (exponent : Int) : Int × Nat :=
  let (n, d) := scaleBinary mantissa 1 exponent
  (if negative then -(n : Int) else n, d)

/-- The order of an integer and a floating point number; no number is ordered against nothing. -/
def compareIntFloat (n : Int) (x : Float) : Option Ordering :=
  match denotation x with
  | .nan => none
  | .infinite negative => some (if negative then .gt else .lt)
  | .finite negative mantissa exponent =>
    let (p, q) := ratio negative mantissa exponent
    some (compare (n * q) p)

/-- The order of two floating point numbers. -/
def compareFloat (x y : Float) : Option Ordering :=
  if x < y then some .lt else if x == y then some .eq else if y < x then some .gt else none

/-- The order of two numbers by their exact values. -/
def compare? : Numeric → Numeric → Option Ordering
  | int m, int n => some (compare m n)
  | int m, float y => compareIntFloat m y
  | float x, int n => (compareIntFloat n x).map Ordering.swap
  | float x, float y => compareFloat x y

/-- The exact remainder of the quotient of two finite numbers, cut off toward zero: it has the sign
of the dividend. -/
def truncatedRemainder (x y : Float) : Float :=
  match denotation x, denotation y with
  | .finite nx mx ex, .finite _ my ey =>
    let e := min ex ey
    let (a, _) := scaleBinary mx 1 (ex - e)
    let (b, _) := scaleBinary my 1 (ey - e)
    let (n, d) := scaleBinary (a % b) 1 e
    nearest nx n d
  | .finite _ _ _, .infinite _ => x
  | _, _ => 0.0 / 0.0

/-- Whether a floating point number has its sign bit set. -/
def signBit (x : Float) : Bool :=
  x.toBits.toNat / Nat.pow 2 63 == 1

/-- A zero with the sign of `x`. -/
def zeroLike (x : Float) : Float :=
  nearest (signBit x) 0 1

/-- The remainder with the sign of the divisor. -/
def flooredRemainder (x y : Float) : Float :=
  let r := truncatedRemainder x y
  if r == 0.0 then zeroLike y
  else if (y < 0.0) != (r < 0.0) then r + y else r

/-- The quotient rounded down, computed from the remainder so that both fit together. -/
def flooredQuotient (x y : Float) : Float :=
  let r := truncatedRemainder x y
  let q := (x - r) / y
  let q := if r != 0.0 && (y < 0.0) != (r < 0.0) then q - 1.0 else q
  if q == 0.0 then zeroLike (x / y)
  else
    let whole := q.floor
    if q - whole > 0.5 then whole + 1.0 else whole

/-- The quotient of two integers, rounded once. -/
def divideInts (m n : Int) : Except Fault Float :=
  let negative := (m < 0) != (n < 0)
  let bits := nearestBits m.natAbs n.natAbs
  if bits == infinityBits then .error (.overflow .quotient) else .ok (ofMagnitudeBits negative bits)

/-- Applies the integer operation to two integers and the floating point one otherwise. -/
def combine (ints : Int → Int → Except Fault Numeric) (floats : Float → Float → Except Fault Float) :
    Numeric → Numeric → Except Fault Numeric
  | int m, int n => ints m n
  | a, b => do
    let x ← a.toFloat
    let y ← b.toFloat
    return float (← floats x y)

/-- The sum. -/
def add : Numeric → Numeric → Except Fault Numeric :=
  combine (fun m n => .ok (int (m + n))) (fun x y => .ok (x + y))

/-- The difference. -/
def sub : Numeric → Numeric → Except Fault Numeric :=
  combine (fun m n => .ok (int (m - n))) (fun x y => .ok (x - y))

/-- The product. -/
def mul : Numeric → Numeric → Except Fault Numeric :=
  combine (fun m n => .ok (int (m * n))) (fun x y => .ok (x * y))

/-- The quotient, always a floating point number. -/
def div : Numeric → Numeric → Except Fault Numeric :=
  combine
    (fun m n => if n == 0 then .error (.zeroDivision .quotient false) else float <$> divideInts m n)
    (fun x y => if y == 0.0 then .error (.zeroDivision .quotient true) else .ok (x / y))

/-- The quotient rounded down. -/
def floorDiv : Numeric → Numeric → Except Fault Numeric :=
  combine
    (fun m n =>
      if n == 0 then .error (.zeroDivision .floorQuotient false) else .ok (int (Int.fdiv m n)))
    (fun x y =>
      if y == 0.0 then .error (.zeroDivision .floorQuotient true) else .ok (flooredQuotient x y))

/-- The remainder of the quotient rounded down. -/
def mod : Numeric → Numeric → Except Fault Numeric :=
  combine
    (fun m n =>
      if n == 0 then .error (.zeroDivision .remainder false) else .ok (int (Int.fmod m n)))
    (fun x y =>
      if y == 0.0 then .error (.zeroDivision .remainder true) else .ok (flooredRemainder x y))

/-- The number with the opposite sign. -/
def neg : Numeric → Numeric
  | int n => int (-n)
  | float x => float (-x)

end Numeric

/-- The number that a value stands for in arithmetic. -/
def Value.numeric? : Value → Option Numeric
  | .bool b => some (.int (if b then 1 else 0))
  | .int n => some (.int n)
  | .float x => some (.float x)
  | .nan _ => some (.float (0.0 / 0.0))
  | _ => Option.none

/-- Whether an integer may be the length of a sequence, or a position from its start or end. -/
def isIndex (n : Int) : Bool :=
  -(Nat.pow 2 63 : Int) ≤ n && n < Nat.pow 2 63

/-- The integer that a value stands for where a count or a position is asked for. -/
def Value.whole? : Value → Option Int
  | .bool b => some (if b then 1 else 0)
  | .int n => some n
  | _ => Option.none

end TemplateEngine

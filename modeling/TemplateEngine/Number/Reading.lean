/-
Reading numbers. Digits of every script count, single underscores may separate digits, and white
space may surround the number.
-/
import TemplateEngine.Number.Notation
import TemplateEngine.Text.CharClass

namespace TemplateEngine.Number

open TemplateEngine.Text

/-- Why a text is no integer: it has another form, or more digits than the limit. -/
inductive IntProblem where
  | malformed
  | tooLong (digits : Nat)
  deriving DecidableEq, Repr

/-- Splits a sign off. -/
def splitSign : List Char → Bool × List Char
  | '-' :: cs => (true, cs)
  | '+' :: cs => (false, cs)
  | cs => (false, cs)

/-- The digits and underscores at the head of a text, without the underscores. `none` where an
underscore does not stand between two digits. -/
def digitGroups? (cs : List Char) : Option (List Char) :=
  let row := cs.takeWhile fun c => isDigit c || c == '_'
  let rec separated (after : Bool) : List Char → Bool
    | [] => after
    | c :: r => if c == '_' then after && separated false r else separated true r
  if separated false row then some (row.filter (· != '_')) else none

/-- Reads an integer of base ten. The limit on digits counts before what follows them is looked at. -/
def readInt (s : String) : Except IntProblem Int :=
  let (negative, cs) := splitSign (trimBy isNumberBlank s.toList)
  match digitGroups? cs with
  | none => .error .malformed
  | some ds =>
    if digitLimit < ds.length then .error (.tooLong ds.length)
    else if cs.any fun c => !(isDigit c || c == '_') then .error .malformed
    else .ok (if negative then -(digitsValue ds : Int) else digitsValue ds)

/-- The number nearest to `digits · 10 ^ exponent`. Exponents far beyond the range of binary64 need
no power of ten: their numbers are infinite or zero. -/
def nearestDecimal (negative : Bool) (digits : List Char) (exponent : Int) : Float :=
  let n := digitsValue digits
  let size : Int := digits.length + exponent
  if n == 0 || size < -400 then nearest negative 0 1
  else if 400 < exponent then ofMagnitudeBits negative infinityBits
  else
    let (num, den) := scaleDecimal n 1 exponent
    nearest negative num den

/-- Reads the exponent after a mantissa: nothing, or an `e`, a sign and digits. -/
def readExponent? : List Char → Option Int
  | [] => some 0
  | c :: cs =>
    if c == 'e' || c == 'E' then
      let (negative, ds) := splitSign cs
      if ds.isEmpty || ds.any (!isDigit ·) then none
      else some (if negative then -(digitsValue ds : Int) else digitsValue ds)
    else none

/-- Reads an unsigned decimal: digits with at most one point among them and an exponent. -/
def readDecimal? (negative : Bool) (cs : List Char) : Option Float :=
  let whole := cs.takeWhile isDigit
  let rest := cs.dropWhile isDigit
  let (fraction, rest) := match rest with
    | '.' :: r => (r.takeWhile isDigit, r.dropWhile isDigit)
    | r => ([], r)
  if whole.isEmpty && fraction.isEmpty then none
  else (readExponent? rest).map fun e =>
    nearestDecimal negative (whole ++ fraction) (e - fraction.length)

/-- Whether every underscore of a text stands between two digits. -/
def underscoresSeparate (before : Option Char) : List Char → Bool
  | [] => true
  | c :: cs =>
    (c != '_' || (before.any isDigit && cs.head?.any isDigit)) && underscoresSeparate (some c) cs

/-- Reads a floating point number: a decimal, or the name of infinity or of no number. -/
def readFloat? (s : String) : Option Float :=
  let cs := trimBy isNumberBlank s.toList
  if !underscoresSeparate none cs then none
  else
    let (negative, body) := splitSign (cs.filter (· != '_'))
    let word := String.ofList (body.map Char.toLower)
    if word == "inf" || word == "infinity" then some (ofMagnitudeBits negative infinityBits)
    else if word == "nan" then some (0.0 / 0.0)
    else readDecimal? negative body

end TemplateEngine.Number

/-
The written form of numbers. A floating point number is written with the fewest digits that read
back, positionally while its point is near its digits and with an exponent otherwise.
-/
import TemplateEngine.Number.Shortest

namespace TemplateEngine.Number

/-- When a number is written positionally: its point lies after more than `leastPoint` and at most
`greatestPoint` digits. -/
structure PointRange where
  leastPoint : Int
  greatestPoint : Int

/-- Numbers from `0.0001` up to, but not including, `10 ^ 16` are written positionally. -/
def positionalRange : PointRange := ⟨-4, 16⟩

/-- The positional form; a whole number keeps a `.0`. -/
def positional (d : Decimal) : String :=
  let count : Int := d.digits.length
  String.ofList <|
    if d.point ≤ 0 then '0' :: '.' :: (List.replicate (-d.point).toNat '0' ++ d.digits)
    else if count ≤ d.point then d.digits ++ List.replicate (d.point - count).toNat '0' ++ ['.', '0']
    else d.digits.take d.point.toNat ++ '.' :: d.digits.drop d.point.toNat

/-- The form with an exponent of a sign and at least two digits. -/
def scientific (d : Decimal) : String :=
  let e := d.point - 1
  let ds := Nat.toDigits 10 e.natAbs
  let mantissa := match d.digits with
    | [] => []
    | [c] => [c]
    | c :: cs => c :: '.' :: cs
  String.ofList (mantissa ++ 'e' :: (if e < 0 then '-' else '+') ::
    (List.replicate (2 - ds.length) '0' ++ ds))

/-- The written form of a floating point number. -/
def floatText (x : Float) : String :=
  match denotation x with
  | .nan => "nan"
  | .infinite negative => if negative then "-inf" else "inf"
  | .finite negative mantissa exponent =>
    let magnitude :=
      if mantissa == 0 then "0.0"
      else
        let d := shortest mantissa exponent
        if positionalRange.leastPoint < d.point && d.point ≤ positionalRange.greatestPoint then
          positional d
        else scientific d
    if negative then "-" ++ magnitude else magnitude

/-- The most digits that an integer may have when it is read or written. -/
def digitLimit : Nat := 4300

/-- The written form of an integer, unless it has more digits than the limit. -/
def intText? (n : Int) : Option String :=
  let ds := Nat.toDigits 10 n.natAbs
  if digitLimit < ds.length then none
  else some (String.ofList (if n < 0 then '-' :: ds else ds))

end TemplateEngine.Number

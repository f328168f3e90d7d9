/-
Floating point numbers with a given number of places, rounded to the nearest decimal with a half to
the even neighbour: in the fixed form, with an exponent, or in whichever of both is the shorter one.
-/
import TemplateEngine.Number.Shortest

namespace TemplateEngine.Number

/-- A form of floating point numbers. -/
inductive PlacedForm where
  | fixed | exponent | general
  deriving DecidableEq, Repr

/-- Digits with zeros in front, up to a length. -/
def padDigits (length : Nat) (ds : List Char) : List Char :=
  List.replicate (length - ds.length) '0' ++ ds

/-- A point and the digits after it. A point without digits is left out, unless it is kept. -/
def fraction (keep : Bool) (ds : List Char) : List Char :=
  if ds.isEmpty && !keep then [] else '.' :: ds

/-- The fixed form of `num / den`. -/
def fixedForm (keep : Bool) (places num den : Nat) : List Char :=
  let (n, d) := scaleDecimal num den places
  let ds := padDigits (places + 1) (Nat.toDigits 10 (roundHalfEven n d))
  ds.take (ds.length - places) ++ fraction keep (ds.drop (ds.length - places))

/-- The first `places + 1` digits of `num / den` and the exponent of the first one. -/
def leadingDigits (places num den : Nat) : List Char × Int :=
  if num == 0 then (List.replicate (places + 1) '0', 0)
  else
    let exponent := decade num den - 1
    let (n, d) := scaleDecimal num den (places - exponent)
    let ds := Nat.toDigits 10 (roundHalfEven n d)
    -- a number that is rounded up to a power of ten has one digit more
    (ds.take (places + 1), exponent + (ds.length - (places + 1) : Int))

/-- A form with an exponent of a sign and at least two digits. -/
def exponentForm (keep : Bool) (ds : List Char) (e : Int) : List Char :=
  ds.take 1 ++ fraction keep (ds.drop 1) ++
    'e' :: (if e < 0 then '-' else '+') :: padDigits 2 (Nat.toDigits 10 e.natAbs)

/-- The shorter form of `num / den` with `places` digits in all; zeros at its end are left out, unless
they are kept. -/
def generalForm (keep : Bool) (places num den : Nat) : List Char :=
  let places := max places 1
  let (ds, e) := leadingDigits (places - 1) num den
  let kept (ds : List Char) : List Char := if keep then ds else dropFinalZeros ds
  if e < -4 || places ≤ e then exponentForm keep (ds.take 1 ++ kept (ds.drop 1)) e
  else if e < 0 then '0' :: fraction keep (kept (List.replicate (-e - 1).toNat '0' ++ ds))
  else ds.take (e.toNat + 1) ++ fraction keep (kept (ds.drop (e.toNat + 1)))

/-- The number `num / den` in a form. The alternate forms keep the point and the zeros. -/
def placed (form : PlacedForm) (alternate : Bool) (places num den : Nat) : List Char :=
  match form with
  | .fixed => fixedForm alternate places num den
  | .exponent =>
    let (ds, e) := leadingDigits places num den
    exponentForm alternate ds e
  | .general => generalForm alternate places num den

end TemplateEngine.Number

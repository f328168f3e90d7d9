/-
Conversions of a format: what the characters of directives write. Texts are cut to the precision;
integers are filled with zeros up to it; floating point numbers have so many places. A format is a
text or a byte string, in which each byte stands for one character.
-/
import TemplateEngine.Format.Piece
import TemplateEngine.Number.Places
import TemplateEngine.Value.Number
import TemplateEngine.Value.Printer

namespace TemplateEngine.Format

open TemplateEngine.Number

/-- The kinds of formats. -/
inductive Kind where
  | text | bytes
  deriving DecidableEq, Repr

/-- The forms in which values are written as texts. -/
inductive TextForm where
  | plain | quoted | ascii
  /-- A byte string as a part of another one. -/
  | raw
  deriving DecidableEq, Repr

/-- A conversion. -/
inductive Conversion where
  | text (form : TextForm)
  /-- An integer, or the whole part of a number. -/
  | whole
  /-- An integer in another base; the alternate form has a zero and the mark in front of it. -/
  | based (base : Nat) (mark : Char)
  | float (form : PlacedForm) (upper : Bool)
  | char
  deriving DecidableEq, Repr

/-- The conversions of numbers. -/
def numberConversion? (c : Char) : Option Conversion :=
  match c with
  | 'd' | 'i' | 'u' => some .whole
  | 'o' => some (.based 8 'o')
  | 'x' => some (.based 16 'x')
  | 'X' => some (.based 16 'X')
  | 'e' => some (.float .exponent false)
  | 'E' => some (.float .exponent true)
  | 'f' => some (.float .fixed false)
  | 'F' => some (.float .fixed true)
  | 'g' => some (.float .general false)
  | 'G' => some (.float .general true)
  | _ => none

/-- The conversion of a character. -/
def Kind.conversion? (kind : Kind) (c : Char) : Option Conversion :=
  match kind, c with
  | text, 's' => some (.text .plain)
  | text, 'r' => some (.text .quoted)
  | text, 'a' => some (.text .ascii)
  | bytes, 's' | bytes, 'b' => some (.text .raw)
  | bytes, 'r' | bytes, 'a' => some (.text .ascii)
  | _, 'c' => some .char
  | _, c => numberConversion? c

/-- The character of a conversion in messages. A byte string has one character for integers. -/
def Kind.shown (kind : Kind) (c : Char) : Char :=
  if kind = bytes ∧ c = 'i' then 'd' else c

/-! ## Sources -/

/-- The character that stands for a byte. -/
def ofByte (b : UInt8) : Char :=
  Char.ofNat b.toNat

/-- A value in a form. -/
def TextForm.write (form : TextForm) (v : Value) : Except Fault String :=
  match form with
  | plain => v.plainText
  | quoted => v.quotedForm
  | ascii => Text.ascii <$> v.quotedForm
  | raw => match v with
    | .bytes bs => .ok (String.ofList (bs.map ofByte))
    | v => .error (.type (.bytesFormat v.qualifiedTypeName))

/-- The floating point number of a value. In a byte string all faults have one text. -/
def Kind.floatOf (kind : Kind) (v : Value) : Except Fault Float :=
  match kind with
  | text => match v.numeric? with
    | some n => n.toFloat
    | none => .error (.type (.floatFormat v.qualifiedTypeName))
  | bytes => match v.numeric? with
    | some n => n.toFloat.mapError fun _ => .type (.floatArgument v.qualifiedTypeName)
    | none => .error (.type (.floatArgument v.qualifiedTypeName))

/-- How many characters there are. -/
def Kind.characters : Kind → Nat
  | text => 0x110000
  | bytes => 0x100

/-- A value that is one character. -/
def Kind.single? (kind : Kind) (v : Value) : Option Char :=
  match kind, v with
  | text, .str s => match s.toList with
    | [c] => some c
    | _ => none
  | bytes, .bytes [b] => some (ofByte b)
  | _, _ => none

/-- The fault of a value that is no character. -/
def Kind.noCharacter : Kind → Fault
  | text => .type (.custom "%c requires int or char")
  | bytes => .type (.custom "%c requires an integer in range(256) or a single byte")

/-- The character of a value: a single one, or the one of a number. -/
def Kind.charOf (kind : Kind) (v : Value) : Except Fault Char :=
  match kind.single? v, v.whole? with
  | some c, _ => .ok c
  | none, some n =>
    if 0 ≤ n && n < kind.characters then .ok (Char.ofNat n.toNat)
    else .error (.overflow (.character (match kind with | text => "0x110000" | bytes => "256")))
  | none, none => .error kind.noCharacter

/-! ## Writing -/

/-- What a conversion writes: the sign and the mark of the base of a number, and all other
characters. -/
structure Written where
  sign : List Char := []
  mark : List Char := []
  body : List Char
  /-- Numbers show signs and are filled with zeros. -/
  isNumber : Bool

/-- The sign of a number as it is written. -/
def signOf (negative : Bool) : List Char :=
  if negative then ['-'] else []

/-- The digits of an integer in base ten, unless it has too many. -/
def wholeDigits (n : Int) : Except Fault (List Char) :=
  match intText? n.natAbs with
  | some text => .ok text.toList
  | none => .error (.value .digitsWritten)

/-- The digits of an integer in a base with a mark. -/
def basedDigits (base : Nat) (mark : Char) (n : Int) : List Char :=
  let ds := Nat.toDigits base n.natAbs
  if mark == 'X' then ds.map Char.toUpper else ds

/-- The greatest precision that integers may have. -/
def greatestPrecision : Nat :=
  Nat.pow 2 31 - 4

/-- An integer with its digits, of which there are at least as many as the precision says. -/
def integerWritten (memory places : Nat) (mark : List Char) (n : Int) (digits : Except Fault (List Char)) :
    Except Fault Written :=
  if greatestPrecision < places then .error (.overflow .precision)
  else do
    let ds ← digits
    if memory < places then .error (.foreign .memory "")
    else return ⟨signOf (n < 0), mark, padDigits places ds, true⟩

/-- A floating point number with so many places. -/
def floatWritten (alternate : Bool) (places : Nat) (form : PlacedForm) (upper : Bool) (x : Float) : Written :=
  let (negative, text) := match denotation x with
    | .nan => (false, ['n', 'a', 'n'])
    | .infinite negative => (negative, ['i', 'n', 'f'])
    | .finite negative mantissa exponent =>
      let (num, den) := scaleBinary mantissa 1 exponent
      (negative, placed form alternate places num den)
  ⟨signOf negative, [], if upper then text.map Char.toUpper else text, true⟩

/-- What a conversion, which has the character `c`, writes for a value. Floating point numbers have six
places unless the precision tells another number. -/
def Conversion.write (kind : Kind) (memory : Nat) (flags : Flags) (precision : Option Nat) (c : Char) (v : Value) :
    Conversion → Except Fault Written
  | text form => do
    let cs := (← form.write v).toList
    return { body := precision.elim cs cs.take, isNumber := false }
  | whole => match v.numeric? with
    | none => .error (.type (.numberFormat (kind.shown c) v.qualifiedTypeName))
    | some n => do
      let n ← n.toInt
      integerWritten memory (precision.getD 0) [] n (wholeDigits n)
  | based base mark => match v.whole? with
    | none => .error (.type (.integerFormat c v.qualifiedTypeName))
    | some n =>
      let mark' := if flags.alternate then ['0', mark] else []
      integerWritten memory (precision.getD 0) mark' n (.ok (basedDigits base mark n))
  | float form upper => do
    let x ← kind.floatOf v
    if memory < precision.getD 6 then .error (.foreign .memory "")
    else return floatWritten flags.alternate (precision.getD 6) form upper x
  | char => do return { body := [← kind.charOf v], isNumber := false }

/-- What was written, filled up to a width: numbers with zeros behind the sign and the mark where a flag
asks for it, and everything else with blanks. -/
def Written.pad (w : Written) (flags : Flags) (width : Nat) : List Char :=
  let sign :=
    if !w.isNumber || !w.sign.isEmpty then w.sign
    else if flags.sign then ['+'] else if flags.blank then [' '] else []
  let head := sign ++ w.mark
  let gap := width - (head ++ w.body).length
  if flags.left then head ++ w.body ++ List.replicate gap ' '
  else if w.isNumber && flags.zero then head ++ List.replicate gap '0' ++ w.body
  else List.replicate gap ' ' ++ head ++ w.body

end TemplateEngine.Format

/-
Conversions of values to numbers. Texts and byte strings are read as numbers; what is no number at
all is a fault of type, and a text of another form one of value.
-/
import TemplateEngine.Number.Reading
import TemplateEngine.Value.Number
import TemplateEngine.Value.Printer

namespace TemplateEngine

open TemplateEngine.Number

/-- A byte string as a text in which the bytes beyond ASCII mean nothing. -/
def asciiText (bs : List UInt8) : String :=
  String.ofList (bs.map fun b => if b < 0x80 then Char.ofNat b.toNat else '\uFFFD')

namespace Value

/-- Reads an integer; `shown` is the quoted form of the source. -/
def wholeOfText (text shown : String) : Except Fault Int :=
  match readInt text with
  | .ok n => .ok n
  | .error .malformed => .error (.value (.wholeNumberText (String.ofList (shown.toList.take 200))))
  | .error (.tooLong digits) => .error (.value (.digitsRead digits))

/-- The integer of a value: the whole part of a number, or what a text writes. -/
def toWhole (v : Value) : Except Fault Int :=
  match v with
  | str s => wholeOfText s (Text.quoted s)
  | bytes bs => wholeOfText (asciiText bs) (Text.quotedBytes bs)
  | v => match v.numeric? with
    | some n => n.toInt
    | Option.none => .error (.type (.wholeNumberSource v.qualifiedTypeName))

/-- The floating point number that a text writes. -/
def floatOfText (text : String) : Except Fault Float :=
  match readFloat? text with
  | some x => .ok x
  | Option.none => .error (.value (.custom "could not convert string to float"))

/-- The floating point number of a value: the nearest one of a number, or what a text writes. -/
def toFloat (v : Value) : Except Fault Float :=
  match v with
  | str s => floatOfText s
  | bytes bs => floatOfText (asciiText bs)
  | v => match v.numeric? with
    | some n => n.toFloat
    | Option.none => .error (.type (.custom "float() argument must be a string or a real number"))

end Value

/-- Takes another way where an operation fails for the type or the value of its operands. -/
def orElseOnMisfit (first : Except Fault α) (second : Unit → Except Fault α) : Except Fault α :=
  match first with
  | .error (.type _) => second ()
  | .error (.value _) => second ()
  | r => r

end TemplateEngine

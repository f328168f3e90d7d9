/-
The quoted form of texts and bytes. Single quotes are used unless the text holds one and holds no
double quote; controls and characters that are not printable are written as escapes.
-/
import TemplateEngine.Text.CharClass
import TemplateEngine.Text.Printable

namespace TemplateEngine.Text

/-- The quote that a quoted form uses: double when that spares an escape. -/
def quoteFor (cs : List Char) : Char :=
  if cs.contains '\'' && !cs.contains '"' then '"' else '\''

/-- The escapes that both quoted forms share. -/
def shortEscape? (quote c : Char) : Option String :=
  if c == quote || c == '\\' then some (String.ofList ['\\', c])
  else if c == '\n' then some "\\n"
  else if c == '\r' then some "\\r"
  else if c == '\t' then some "\\t"
  else none

/-- A character by its code point. -/
def codeEscape (c : Char) : String :=
  if c.toNat < 0x100 then "\\x" ++ hex 2 c.toNat
  else if c.toNat < 0x10000 then "\\u" ++ hex 4 c.toNat
  else "\\U" ++ hex 8 c.toNat

/-- How a quoted text writes one character. -/
def quotedChar (quote c : Char) : String :=
  match shortEscape? quote c with
  | some e => e
  | none => if isPrintable c then String.singleton c else codeEscape c

/-- A text with escapes for the characters outside ASCII. -/
def ascii (s : String) : String :=
  String.join (s.toList.map fun c => if c.toNat < 128 then String.singleton c else codeEscape c)

/-- The quoted form of a text. -/
def quoted (s : String) : String :=
  let q := quoteFor s.toList
  String.singleton q ++ String.join (s.toList.map (quotedChar q)) ++ String.singleton q

/-- How a quoted byte string writes one byte. -/
def quotedByte (quote : Char) (b : UInt8) : String :=
  let c := Char.ofNat b.toNat
  match shortEscape? quote c with
  | some e => e
  | none => if 32 ≤ b && b < 127 then String.singleton c else "\\x" ++ hex 2 b.toNat

/-- The quoted form of a byte string: a `b` and the bytes, shown as ASCII where they can be. -/
def quotedBytes (bs : List UInt8) : String :=
  let q := quoteFor (bs.map fun b => Char.ofNat b.toNat)
  "b" ++ String.singleton q ++ String.join (bs.map (quotedByte q)) ++ String.singleton q

end TemplateEngine.Text

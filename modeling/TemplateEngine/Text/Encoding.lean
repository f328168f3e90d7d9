/-
Reading bytes as text: UTF-8, in which documents are written, and the other encodings that a template
file is most often read in. Each line end, however it is written, becomes one line feed.
-/
import TemplateEngine.Text.CharClass

namespace TemplateEngine.Text

/-- The encodings of template files. The one with a signature is UTF-8 that may start with a byte order
mark; `utf16` has to start with one, which tells the order of its bytes. -/
inductive Encoding where
  | utf8 | utf8Signature | utf16 | utf16Little | utf16Big | ascii | latin1 | windows1252
  deriving DecidableEq, Repr

/-- The name of an encoding in messages. -/
def Encoding.name : Encoding → String
  | utf8 => "utf-8"
  | utf8Signature => "utf-8"
  | utf16 => "utf-16"
  | utf16Little => "utf-16-le"
  | utf16Big => "utf-16-be"
  | ascii => "ascii"
  | latin1 => "latin-1"
  | windows1252 => "charmap"

/-- Whether a character belongs to a part of a name: an ASCII letter, a digit or a point. -/
def isLabelChar (c : Char) : Bool :=
  c.isAlphanum || c == '.'

/-- The parts of a name of an encoding, in small letters; other characters separate them. -/
def nameParts (name : String) : List String :=
  (words name.toList).map String.ofList
where
  /-- The words of the rest of a name. -/
  words : List Char → List (List Char)
    | [] => []
    | c :: cs =>
      if !isLabelChar c then words cs
      else match words cs, cs with
        | w :: ws, d :: _ => if isLabelChar d then (c.toLower :: w) :: ws else [c.toLower] :: w :: ws
        | ws, _ => [c.toLower] :: ws

/-- The names of each encoding. -/
def encodingNames : List (Encoding × List String) :=
  [(.utf8, ["utf_8", "utf8", "u8", "utf", "cp65001", "utf8_ucs2", "utf8_ucs4"]),
    (.utf8Signature, ["utf_8_sig"]),
    (.utf16, ["utf_16", "utf16", "u16"]),
    (.utf16Little, ["utf_16_le", "utf_16le", "unicodelittleunmarked"]),
    (.utf16Big, ["utf_16_be", "utf_16be", "unicodebigunmarked"]),
    (.ascii, ["ascii", "646", "us", "us_ascii", "cp367", "csascii", "ibm367", "iso646_us", "iso_ir_6",
      "iso_646.irv_1991", "iso_646_irv_1991", "ansi_x3.4_1968", "ansi_x3_4_1968", "ansi_x3.4_1986",
      "ansi_x3_4_1986"]),
    (.latin1, ["latin_1", "latin1", "latin", "l1", "iso_8859_1", "iso8859_1", "iso8859", "8859", "cp819",
      "csisolatin1", "ibm819", "iso_8859_1_1987", "iso_ir_100"]),
    (.windows1252, ["cp1252", "1252", "windows_1252"])]

/-- The encoding of a name. Case does not matter, nor does what separates the parts of the name. -/
def Encoding.ofName? (name : String) : Option Encoding :=
  let plain := "_".intercalate (nameParts name)
  (encodingNames.find? fun row => row.2.contains plain).map Prod.fst

/-- What is wrong with bytes. -/
inductive DecodeReason where
  | start | continuation | incomplete | range | odd | surrogate | unpaired | unassigned
  deriving DecidableEq, Repr

/-- The text of the reason. -/
def DecodeReason.message : DecodeReason → String
  | start => "invalid start byte"
  | continuation => "invalid continuation byte"
  | incomplete => "unexpected end of data"
  | range => "ordinal not in range(128)"
  | odd => "truncated data"
  | surrogate => "illegal UTF-16 surrogate"
  | unpaired => "illegal encoding"
  | unassigned => "character maps to <undefined>"

/-- Bytes that are no text: the first of them, its position, and how many belong together. -/
structure BadBytes where
  encoding : Encoding
  byte : UInt8
  position : Nat
  count : Nat
  reason : DecodeReason
  deriving DecidableEq, Repr

/-- The text of the problem with bytes. -/
def BadBytes.message (p : BadBytes) : String :=
  let bytes := if p.count == 1 then s!"byte 0x{hex 2 p.byte.toNat} in position {p.position}"
    else s!"bytes in position {p.position}-{p.position + p.count - 1}"
  s!"'{p.encoding.name}' codec can't decode {bytes}: {p.reason.message}"

/-- Why a file is no text: some of its bytes, the byte order mark that it lacks, or what a codec besides these says. -/
inductive DecodeProblem where
  | bytes (bad : BadBytes)
  | unmarked
  | custom (text : String)
  deriving DecidableEq, Repr

/-- The text of the problem. -/
def DecodeProblem.message : DecodeProblem → String
  | bytes bad => bad.message
  | unmarked => "UTF-16 stream does not start with BOM"
  | custom text => text

/-- The form of a character's bytes: how many follow the first one, the bits that the first one
gives, and the range of the second one. -/
structure ByteForm where
  following : Nat
  lead : Nat
  low : Nat
  high : Nat

/-- The form that the first byte of a character announces. -/
def byteForm? (b : UInt8) : Option ByteForm :=
  let n := b.toNat
  if n < 0xC2 then none
  else if n < 0xE0 then some ⟨1, n - 0xC0, 0x80, 0xC0⟩
  else if n < 0xF0 then
    some ⟨2, n - 0xE0, if n == 0xE0 then 0xA0 else 0x80, if n == 0xED then 0xA0 else 0xC0⟩
  else if n < 0xF5 then
    some ⟨3, n - 0xF0, if n == 0xF0 then 0x90 else 0x80, if n == 0xF4 then 0x90 else 0xC0⟩
  else none

/-- Takes the following bytes of a character: the number they make up, or how many of them fit and
what is wrong then. The first one lies between `low` and `high`. -/
def following (low high value : Nat) : Nat → List UInt8 → Except (Nat × DecodeReason) Nat
  | 0, _ => .ok value
  | _ + 1, [] => .error (0, .incomplete)
  | n + 1, b :: bs =>
    if low ≤ b.toNat && b.toNat < high then
      match following 0x80 0xC0 (value * 64 + (b.toNat - 0x80)) n bs with
      | .ok v => .ok v
      | .error (fitting, reason) => .error (fitting + 1, reason)
    else .error (0, .continuation)

/-- Decodes the rest of some bytes, the first of which is at `position`; `wait` of them belong to the
character before. -/
def decodeUtf8From (position : Nat) : Nat → List UInt8 → Except BadBytes (List Char)
  | _, [] => .ok []
  | wait + 1, _ :: bs => decodeUtf8From (position + 1) wait bs
  | 0, b :: bs =>
    if b < 0x80 then do return Char.ofNat b.toNat :: (← decodeUtf8From (position + 1) 0 bs)
    else match byteForm? b with
      | none => .error ⟨.utf8, b, position, 1, .start⟩
      | some form => match following form.low form.high form.lead form.following bs with
        | .error (fitting, reason) => .error ⟨.utf8, b, position, fitting + 1, reason⟩
        | .ok n => do return Char.ofNat n :: (← decodeUtf8From (position + 1) form.following bs)

/-- The byte order mark in UTF-8. -/
def signature : List UInt8 := [0xEF, 0xBB, 0xBF]

/-- Decodes bytes that may start with the signature; a part of it alone is no text yet. -/
def decodeSigned (bs : List UInt8) : Except BadBytes (List Char) :=
  if bs.isPrefixOf signature then .ok []
  else decodeUtf8From 0 0 (if signature.isPrefixOf bs then bs.drop signature.length else bs)

/-- The number that two bytes make up. -/
def unit (big : Bool) (a b : UInt8) : Nat :=
  if big then a.toNat * 256 + b.toNat else b.toNat * 256 + a.toNat

/-- Decodes the rest of some bytes, the first of which is at `position`, by units of two bytes. -/
def decodeUtf16From (big : Bool) (position : Nat) : List UInt8 → Except BadBytes (List Char)
  | [] => .ok []
  | [a] => fail a 1 .odd
  | a :: b :: bs =>
    let n := unit big a b
    if n < 0xD800 || 0xE000 ≤ n then do
      return Char.ofNat n :: (← decodeUtf16From big (position + 2) bs)
    else if 0xDC00 ≤ n then fail a 2 .unpaired
    else match bs with
      | [] => fail a 2 .incomplete
      | [_] => fail a 3 .incomplete
      | c :: d :: bs =>
        let m := unit big c d
        if m < 0xDC00 || 0xE000 ≤ m then fail a 2 .surrogate
        else do
          let ch := Char.ofNat (0x10000 + (n - 0xD800) * 0x400 + (m - 0xDC00))
          return ch :: (← decodeUtf16From big (position + 4) bs)
where
  /-- The problem with the bytes at the position. -/
  fail (a : UInt8) (count : Nat) (reason : DecodeReason) : Except BadBytes (List Char) :=
    .error ⟨if big then .utf16Big else .utf16Little, a, position, count, reason⟩

/-- Decodes bytes whose first two tell the order. Without them the bytes still have to be pairs. -/
def decodeMarked (bs : List UInt8) : Except DecodeProblem (List Char) :=
  match bs with
  | 0xFF :: 0xFE :: rest => (decodeUtf16From false 2 rest).mapError .bytes
  | 0xFE :: 0xFF :: rest => (decodeUtf16From true 2 rest).mapError .bytes
  | bs => do
    let cs ← (decodeUtf16From false 0 bs).mapError .bytes
    if cs.isEmpty then return [] else throw .unmarked

/-- The characters that Windows-1252 has at 0x80 to 0x9F, or zero. -/
def windows1252Table : List Nat :=
  [0x20AC, 0, 0x201A, 0x192, 0x201E, 0x2026, 0x2020, 0x2021, 0x2C6, 0x2030, 0x160, 0x2039, 0x152, 0, 0x17D, 0,
    0, 0x2018, 0x2019, 0x201C, 0x201D, 0x2022, 0x2013, 0x2014, 0x2DC, 0x2122, 0x161, 0x203A, 0x153, 0, 0x17E,
    0x178]

/-- The character of a byte, where each byte stands for one, or what is wrong with it. -/
def charOf (e : Encoding) (b : UInt8) : Except DecodeReason Char :=
  match e with
  | .latin1 => .ok (Char.ofNat b.toNat)
  | .windows1252 =>
    if b < 0x80 || 0xA0 ≤ b then .ok (Char.ofNat b.toNat)
    else match windows1252Table[b.toNat - 0x80]? with
      | some (n + 1) => .ok (Char.ofNat (n + 1))
      | _ => .error .unassigned
  | _ => if b < 0x80 then .ok (Char.ofNat b.toNat) else .error .range

/-- Decodes bytes that stand for one character each. -/
def decodeSingle (e : Encoding) (position : Nat) : List UInt8 → Except BadBytes (List Char)
  | [] => .ok []
  | b :: bs => match charOf e b with
    | .ok c => do return c :: (← decodeSingle e (position + 1) bs)
    | .error reason => .error ⟨e, b, position, 1, reason⟩

/-- Decodes bytes. -/
def decode (e : Encoding) (bs : List UInt8) : Except DecodeProblem (List Char) :=
  match e with
  | .utf8 => (decodeUtf8From 0 0 bs).mapError .bytes
  | .utf8Signature => (decodeSigned bs).mapError .bytes
  | .utf16 => decodeMarked bs
  | .utf16Little => (decodeUtf16From false 0 bs).mapError .bytes
  | .utf16Big => (decodeUtf16From true 0 bs).mapError .bytes
  | .ascii => (decodeSingle .ascii 0 bs).mapError .bytes
  | .latin1 => (decodeSingle .latin1 0 bs).mapError .bytes
  | .windows1252 => (decodeSingle .windows1252 0 bs).mapError .bytes

/-- Writes each line end as one line feed. -/
def plainLines : List Char → List Char
  | [] => []
  | '\r' :: '\n' :: cs => '\n' :: plainLines cs
  | '\r' :: cs => '\n' :: plainLines cs
  | c :: cs => c :: plainLines cs

end TemplateEngine.Text

/-
Filling a format with values. A tuple supplies several values, anything else one; a directive with a
key is supplied with an item of a mapping instead.
-/
import TemplateEngine.Format.Conversion
import TemplateEngine.Value.Access

namespace TemplateEngine.Format

namespace Kind

/-- Whether a value has items by key, as far as a format is concerned. -/
def isMapping (kind : Kind) (v : Value) : Bool :=
  match kind, v with
  | _, .list _ | _, .dict _ | _, .faulty _ _ _ => true
  | text, .bytes _ => true
  | _, _ => false

/-- A key in a format as a value. -/
def key (kind : Kind) (cs : List Char) : Value :=
  match kind with
  | text => .str (String.ofList cs)
  | bytes => .bytes (cs.map fun c => UInt8.ofNat c.toNat)

/-- A kind in a message. -/
def noun : Kind → String
  | text => "string"
  | bytes => "bytes"

end Kind

/-- Whether the digits of a measure stand right before the character of the conversion. -/
def Directive.endsInDigits (d : Directive) : Bool :=
  !d.long && match d.precision, d.width with
    | some (.digits ds), _ => !ds.isEmpty
    | none, some (.digits _) => true
    | _, _ => false

/-- The fault of a character that is no conversion. A text does not show controls and characters outside
ASCII, and a byte string shows a byte outside ASCII behind digits only. -/
def Directive.unknown (d : Directive) (kind : Kind) (c : Char) : Fault :=
  match kind with
  | .text => .value (.formatCharacter (if 31 ≤ c.toNat && c.toNat ≤ 126 then c else '?') c d.index)
  | .bytes =>
    if c.toNat < 128 || d.endsInDigits then .value (.formatCharacter c c d.index) else .overflow .shownCharacter

/-! ## Measures -/

/-- What a measure may be at most, and what is wrong with a greater one. -/
structure Bound where
  greatest : Nat
  digits : String
  value : OverflowProblem

/-- The bound of widths. -/
def widthBound : Bound :=
  ⟨Nat.pow 2 63 - 1, "width too big", .size⟩

/-- The bound of precisions. -/
def Kind.precisionBound : Kind → Bound
  | text => ⟨Nat.pow 2 31 - 1, "precision too big", .number⟩
  | bytes => ⟨Nat.pow 2 31 - 1, "prec too big", .number⟩

/-- Whether a value of a measure is within its bound. -/
def Bound.admits (bound : Bound) (n : Int) : Bool :=
  -(bound.greatest + 1 : Int) ≤ n && n ≤ bound.greatest

/-- Reads a measure, if there is one; a star takes a value. -/
def readMeasure (bound : Bound) (m : Option Measure) (values : List Value) : Except Fault (Option Int × List Value) :=
  match m, values with
  | none, values => .ok (none, values)
  | some (.digits ds), values =>
    let n := Text.digitsValue ds
    if bound.greatest < n then .error (.value (.custom bound.digits)) else .ok (some n, values)
  | some .star, [] => .error (.type .notEnoughToFormat)
  | some .star, v :: values => match v.whole? with
    | none => .error (.type (.custom "* wants int"))
    | some n => if bound.admits n then .ok (some n, values) else .error (.overflow bound.value)

/-! ## Directives -/

namespace Directive

/-- The values for a directive: those that are left, or the item of its key. -/
def supply (kind : Kind) (source : Option Value) (values : List Value) (d : Directive) : Except Fault (List Value) :=
  match d.key, source with
  | .absent, _ => .ok values
  | _, none => .error (.type (.custom "format requires a mapping"))
  | .incomplete, some _ => .error (.value (.custom "incomplete format key"))
  | .named key, some mapping => match mapping.readItem (kind.key key) with
    | .found v => .ok [v]
    | .missing => do .error (.foreign .key (← (kind.key key).quotedForm))
    | .failed f => .error f

/-- The text of a directive whose measures were read. A negative width is one to the left, and a
negative precision is none. -/
def write (kind : Kind) (memory : Nat) (width precision : Option Int) (values : List Value) (d : Directive) :
    Except Fault (List Char × List Value) :=
  match d.conversion, values with
  | none, _ => .error (.value .incompleteFormat)
  | some _, [] => .error (.type .notEnoughToFormat)
  | some c, v :: values => match kind.conversion? c with
    | none => .error (d.unknown kind c)
    | some conversion => do
      let written ← conversion.write kind memory d.flags (precision.map Int.toNat) c v
      let width := width.getD 0
      if memory < width.natAbs then .error (.foreign .memory "")
      else return (written.pad { d.flags with left := d.flags.left || width < 0 } width.natAbs, values)

/-- The text of a directive and the values that are left. -/
def fill (kind : Kind) (memory : Nat) (source : Option Value) (values : List Value) (d : Directive) :
    Except Fault (List Char × List Value) := do
  let values ← d.supply kind source values
  let (width, values) ← readMeasure widthBound d.width values
  let (precision, values) ← readMeasure kind.precisionBound d.precision values
  d.write kind memory width precision values

end Directive

/-! ## Formats -/

/-- Fills pieces in order: their text and the values that are left. -/
def fillPieces (kind : Kind) (memory : Nat) (source : Option Value) : List Value → List Piece →
    Except Fault (List Char × List Value)
  | values, [] => .ok ([], values)
  | values, .char c :: ps => (fun r => (c :: r.1, r.2)) <$> fillPieces kind memory source values ps
  | values, .directive d :: ps => do
    let (text, values) ← d.fill kind memory source values
    (fun r => (text ++ r.1, r.2)) <$> fillPieces kind memory source values ps

/-- The values that the argument of a format supplies. -/
def supplied : Value → List Value
  | .tuple items => items
  | v => [v]

/-- The argument of a format, if it supplies items by key. -/
def Kind.source (kind : Kind) (v : Value) : Option Value :=
  if kind.isMapping v then some v else none

/-- Fills a format. All values have to be used, unless there are items by key. -/
def fill (kind : Kind) (memory : Nat) (format : List Char) (v : Value) : Except Fault (List Char) := do
  let (text, left) ← fillPieces kind memory (kind.source v) (supplied v) (pieces format)
  if left.isEmpty || (kind.source v).isSome then return text else .error (.type (.notAllFormatted kind.noun))

/-- Fills a text. -/
def fillText (memory : Nat) (format : String) (v : Value) : Except Fault Value :=
  (fun cs => .str (String.ofList cs)) <$> fill .text memory format.toList v

/-- Fills a byte string. -/
def fillBytes (memory : Nat) (format : List UInt8) (v : Value) : Except Fault Value :=
  (fun cs => .bytes (cs.map fun c => UInt8.ofNat c.toNat)) <$> fill .bytes memory (format.map ofByte) v

end TemplateEngine.Format

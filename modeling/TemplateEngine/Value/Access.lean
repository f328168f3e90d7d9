/-
Reading values: their items, length, attributes, and the item at a key or position.
-/
import TemplateEngine.Value.Equality

namespace TemplateEngine

/-- The outcome of reading a part of a value. A part that is not there is no fault. -/
inductive Reading where
  | found (v : Value)
  | missing
  | failed (f : Fault)

/-- The attributes that values have beside their own: the methods of their types and the like. -/
abbrev Attributes := Value → String → Reading

namespace Value

/-- The items of a value that can be gone through: characters of a text, numbers of a byte string,
keys of a mapping. -/
def items? : Value → Option (List Value)
  | list items => some items
  | tuple items => some items
  | dict entries => some (entries.map (·.1))
  | str s => some (characters s)
  | bytes bs => some (bs.map fun b => int b.toNat)
  | _ => Option.none

/-- The items of a value, or a fault. -/
def items (v : Value) : Except Fault (List Value) :=
  match v.items?, v with
  | some items, _ => .ok items
  | Option.none, faulty _ _ text => .error (.foreign .runtime text)
  | Option.none, v => .error (.type (.iteration v.qualifiedTypeName))

/-- The number of items of a value that has a length. -/
def length? : Value → Option Nat
  | str s => some s.length
  | v => v.items?.map (·.length)

/-- The bytes that each item of a sequence takes. All characters of a text take as many as the widest. -/
def itemSize : Value → Nat
  | str s =>
    if s.toList.all (·.toNat < 0x100) then 1 else if s.toList.all (·.toNat < 0x10000) then 2 else 4
  | bytes _ => 1
  | _ => 8

/-- The attribute of a name that a value has by itself: a mapping has its text keys as attributes. -/
def readAttribute (v : Value) (name : String) : Reading :=
  let read : Option Value → Reading
    | some v => .found v
    | Option.none => .missing
  match v with
  | dict entries => read (valueOfKey? entries (str name))
  | record fields => read ((fields.find? (·.1 == name)).map (·.2))
  | loop index0 length =>
    if name == "index0" then .found (int index0)
    else if name == "index" then .found (int (index0 + 1))
    else if name == "length" then .found (int length)
    else if name == "first" then .found (bool (index0 == 0))
    else if name == "last" then .found (bool (index0 + 1 == length))
    else .missing
  | faulty _ _ text => if name == "value" then .failed (.value (.custom text)) else .missing
  | _ => .missing

/-- The attribute of a name. A mapping has no other attributes than its keys. -/
def member (others : Attributes) (v : Value) (name : String) : Reading :=
  match v, v.readAttribute name with
  | dict _, r => r
  | v, .missing => others v name
  | _, r => r

/-- The position in a sequence of a length that an index denotes; negative ones count from the end. -/
def position? (length : Nat) (index : Int) : Option Nat :=
  let i := if index < 0 then index + length else index
  if 0 ≤ i && i < length then some i.toNat else Option.none

/-- The item of a sequence at an index. -/
def itemAt (items : List Value) (index : Int) : Reading :=
  match (position? items.length index).bind (items[·]?) with
  | some v => .found v
  | Option.none => .missing

/-- The item of a value at a key or position. -/
def readItem (v key : Value) : Reading :=
  let indexed (items : List Value) (problem : String → TypeProblem) : Reading :=
    match key.whole? with
    | some index => itemAt items index
    | Option.none => .failed (.type (problem key.qualifiedTypeName))
  match v with
  | dict entries => match key.checkKey with
    | .error f => .failed f
    | .ok _ => match valueOfKey? entries key with
      | some v => .found v
      | Option.none => .missing
  | list items => indexed items (.sequenceIndex "list")
  | tuple items => indexed items (.sequenceIndex "tuple")
  | bytes bs => indexed (bs.map fun b => int b.toNat) (.sequenceIndex "byte")
  | str s => indexed (characters s) .textIndex
  | faulty _ _ text => .failed (.foreign .runtime text)
  | v => .failed (.type (.subscript v.qualifiedTypeName))

end Value

end TemplateEngine

/-
The values that templates compute with. Functions and filters are values too; they are held by name,
and `Host` says what the ones of the embedding program do.
-/
namespace TemplateEngine

/-- The filters that every environment starts with. -/
inductive BuiltinFilter where
  | default | upper | lower | capitalize | title | trim | length | join | first | last | replace
  | escape | int | float | string | reverse | sort
  deriving DecidableEq, Repr

/-- The functions that every environment starts with. -/
inductive BuiltinFunction where
  | range | len | dict
  deriving DecidableEq, Repr

/-- What can be called: a filter or function of the library, or one of the embedding program. -/
inductive Callable where
  | filter (f : BuiltinFilter)
  | function (f : BuiltinFunction)
  | host (name : String)
  deriving DecidableEq, Repr

/-- What tells a value from others that look like it. -/
inductive Mark where
  /-- A mark that was chosen where the value comes from. -/
  | given (n : Nat)
  /-- The mark of a value that evaluation made: `index` tells it from the others made in a scope of
  that level. -/
  | made (level index : Nat)
  deriving DecidableEq, Repr

/-- A template value. -/
inductive Value where
  | none
  | bool (b : Bool)
  | int (n : Int)
  /-- A floating point number. An operation may have one as its outcome that denotes no number; it
  becomes a `nan` where it is evaluated. -/
  | float (x : Float)
  /-- A floating point number that denotes none: the same as itself only. -/
  | nan (mark : Mark)
  | str (s : String)
  | bytes (bs : List UInt8)
  | list (items : List Value)
  | tuple (items : List Value)
  /-- A mapping in insertion order; no two keys are equal. -/
  | dict (entries : List (Value × Value))
  /-- An object with plain attributes. -/
  | record (fields : List (String × Value))
  | callable (c : Callable)
  /-- The state of a loop at the round `index0` of `length` rounds. -/
  | loop (index0 length : Nat)
  /-- A foreign object of a class, all of whose reads fail with a text: equal to itself only. -/
  | faulty (mark : Mark) (className text : String)
  deriving Inhabited

namespace Value

/-- The name of the type of a value. -/
def typeName : Value → String
  | none => "NoneType"
  | bool _ => "bool"
  | int _ => "int"
  | float _ => "float"
  | nan _ => "float"
  | str _ => "str"
  | bytes _ => "bytes"
  | list _ => "list"
  | tuple _ => "tuple"
  | dict _ => "dict"
  | record _ => "SimpleNamespace"
  | callable _ => "function"
  | loop _ _ => "LoopInfo"
  | faulty _ className _ => className

/-- The name of the type of a value together with the place of the type, where it has one. -/
def qualifiedTypeName : Value → String
  | record _ => "types.SimpleNamespace"
  | v => v.typeName

/-- Whether a condition holds: empty collections, zeros and `none` do not. -/
def truthy : Value → Bool
  | none => false
  | bool b => b
  | int n => n != 0
  | float x => x != 0.0
  | nan _ => true
  | str s => s != ""
  | bytes bs => !bs.isEmpty
  | list items => !items.isEmpty
  | tuple items => !items.isEmpty
  | dict entries => !entries.isEmpty
  | record _ => true
  | callable _ => true
  | loop _ _ => true
  | faulty _ _ _ => true

mutual

/-- Whether a value may be the key of a mapping. -/
def hashable : Value → Bool
  | list _ => false
  | dict _ => false
  | record _ => false
  | tuple items => allHashable items
  | _ => true

/-- Whether all of some values may be keys. -/
def allHashable : List Value → Bool
  | [] => true
  | v :: vs => v.hashable && allHashable vs

end

mutual

/-- The first part of a value that keeps it from being a key: a tuple is no key for its items' sake. -/
def firstUnhashable? : Value → Option Value
  | tuple items => firstUnhashableIn? items
  | v => if v.hashable then Option.none else some v

/-- The first part of some values that is no key. -/
def firstUnhashableIn? : List Value → Option Value
  | [] => Option.none
  | v :: vs => v.firstUnhashable? <|> firstUnhashableIn? vs

end

/-- A list of one-character texts. -/
def characters (s : String) : List Value :=
  s.toList.map fun c => str (String.singleton c)

end Value

end TemplateEngine

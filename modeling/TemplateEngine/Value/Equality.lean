/-
Equality of values. Numbers are equal across their types when their exact values are; collections of
one type are equal part by part, mappings and objects in any order. Two values are the same where
one stands for the other in a collection: they are equal, or one and the same `nan`.
-/
import TemplateEngine.Value.Number

namespace TemplateEngine

namespace Value

/-- Whether two values are one and the same `nan`. -/
def sameNan : Value → Value → Bool
  | nan m, nan n => m == n
  | _, _ => false

/-- Equality of values that have no parts. -/
def equalAtoms : Value → Value → Bool
  | none, none => true
  | str s, str t => s == t
  | bytes s, bytes t => s == t
  | callable f, callable g => f == g
  | loop i m, loop j n => i == j && m == n
  | faulty m _ _, faulty n _ _ => m == n
  | a, b => match a.numeric?, b.numeric? with
    | some m, some n => m.compare? n == some .eq
    | _, _ => false

mutual

/-- Equality of values. -/
def equal : Value → Value → Bool
  | list xs, list ys => sameItems xs ys
  | tuple xs, tuple ys => sameItems xs ys
  | dict xs, dict ys => xs.length == ys.length && sameEntries xs ys
  | record xs, record ys => xs.length == ys.length && sameFields xs ys
  | a, b => equalAtoms a b

/-- Whether two lists hold the same values in one order. -/
def sameItems : List Value → List Value → Bool
  | [], [] => true
  | x :: xs, y :: ys => (equal x y || sameNan x y) && sameItems xs ys
  | _, _ => false

/-- Whether each entry has one of the same key and value among others. -/
def sameEntries : List (Value × Value) → List (Value × Value) → Bool
  | [], _ => true
  | (k, v) :: es, others =>
    (match others.find? fun e => equal k e.1 || sameNan k e.1 with
      | some e => equal v e.2 || sameNan v e.2
      | Option.none => false) && sameEntries es others

/-- Whether each field has one of the same name and value among others. -/
def sameFields : List (String × Value) → List (String × Value) → Bool
  | [], _ => true
  | (name, v) :: fs, others =>
    (match others.find? fun f => name == f.1 with
      | some f => equal v f.2 || sameNan v f.2
      | Option.none => false) && sameFields fs others

end

/-- Whether one value stands for the other in a collection. -/
def same (a b : Value) : Bool :=
  equal a b || sameNan a b

end Value

/-! ## Entries of mappings -/

/-- The value of a key. -/
def valueOfKey? (entries : List (Value × Value)) (key : Value) : Option Value :=
  (entries.find? fun e => key.same e.1).map (·.2)

/-- Sets the value of a key: the first spelling of the key and its place stay. -/
def insertEntry (key value : Value) : List (Value × Value) → List (Value × Value)
  | [] => [(key, value)]
  | (k, v) :: es => if key.same k then (k, value) :: es else (k, v) :: insertEntry key value es

/-- Fails where a value may not be the key of a mapping. -/
def Value.checkKey (key : Value) : Except Fault Unit :=
  match key.firstUnhashable? with
  | some part => .error (.type (.unhashable part.qualifiedTypeName))
  | Option.none => .ok ()

end TemplateEngine

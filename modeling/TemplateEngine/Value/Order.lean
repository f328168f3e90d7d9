/-
Order of values. Numbers, texts, byte strings, lists and tuples are ordered against their own kind;
lists and tuples are ordered by the first items that are not the same, and then by length.
-/
import TemplateEngine.Value.Equality

namespace TemplateEngine

/-- The four order comparisons. -/
inductive OrderOp where
  | lt | le | gt | ge
  deriving DecidableEq, Repr

namespace OrderOp

/-- How the comparison is written. -/
def symbol : OrderOp → String
  | lt => "<"
  | le => "<="
  | gt => ">"
  | ge => ">="

/-- Whether the comparison holds of two things in a given order. -/
def holds : OrderOp → Ordering → Bool
  | lt, o => o == .lt
  | le, o => o != .gt
  | gt, o => o == .gt
  | ge, o => o != .lt

end OrderOp

/-- The order of two sequences by their first different items, and then by length. -/
def compareSequences (cmp : α → α → Ordering) : List α → List α → Ordering
  | [], [] => .eq
  | [], _ :: _ => .lt
  | _ :: _, [] => .gt
  | x :: xs, y :: ys => match cmp x y with
    | .eq => compareSequences cmp xs ys
    | o => o

/-- The order of two texts by their characters. -/
def compareText (s t : String) : Ordering :=
  compareSequences (fun c d => compare c.toNat d.toNat) s.toList t.toList

namespace Value

/-- Order of values that have no parts. Two objects are compared as the mappings of their fields, which
have no order. -/
def orderAtoms (op : OrderOp) : Value → Value → Except Fault Bool
  | str s, str t => .ok (op.holds (compareText s t))
  | bytes s, bytes t => .ok (op.holds (compareSequences (fun b c => compare b.toNat c.toNat) s t))
  | record _, record _ => .error (.type (.ordering op.symbol "dict" "dict"))
  | a, b => match a.numeric?, b.numeric? with
    | some m, some n => .ok ((m.compare? n).any op.holds)
    | _, _ => .error (.type (.ordering op.symbol a.qualifiedTypeName b.qualifiedTypeName))

mutual

/-- Whether an order comparison of two values holds. -/
def ordered (op : OrderOp) : Value → Value → Except Fault Bool
  | list xs, list ys => orderedItems op xs ys
  | tuple xs, tuple ys => orderedItems op xs ys
  | a, b => orderAtoms op a b

/-- Whether an order comparison of two lists holds. -/
def orderedItems (op : OrderOp) : List Value → List Value → Except Fault Bool
  | x :: xs, y :: ys => if x.same y then orderedItems op xs ys else ordered op x y
  | [], [] => .ok (op.holds .eq)
  | [], _ :: _ => .ok (op.holds .lt)
  | _ :: _, [] => .ok (op.holds .gt)

end

end Value

end TemplateEngine

/-
The built-in functions.
-/
import TemplateEngine.Value.Access
import TemplateEngine.Value.Conversion

namespace TemplateEngine

namespace BuiltinFunction

/-- `count` numbers from `start` on, `step` apart. -/
def progression (start step : Int) : Nat → List Value
  | 0 => []
  | count + 1 => .int start :: progression (start + step) step count

/-- How many numbers there are from `start` before `stop` is reached. -/
def progressionLength (start stop step : Int) : Nat :=
  if 0 < step then ((stop - start + step - 1) / step).toNat
  else ((start - stop - step - 1) / -step).toNat

/-- The numbers up to an end, from a start to an end, or with a step between them. They have to fit into
the memory. -/
def numbers (memory : Nat) (args : List Value) : Except Fault Value := do
  let limits ← args.mapM Value.toWhole
  let (start, stop, step) ← match limits with
    | [stop] => pure (0, stop, 1)
    | [start, stop] => pure (start, stop, 1)
    | [start, stop, step] => pure (start, stop, step)
    | limits => throw (.type (.rangeArguments limits.length))
  if step == 0 then throw (.value .rangeStep)
  let length := progressionLength start stop step
  if !isIndex length then throw (.overflow .size)
  if memory < Value.itemSize (.list []) * length then throw (.foreign .memory "")
  return .list (progression start step length)

/-- The number of items; `none` has none. -/
def lengthOf : Value → Except Fault Value
  | .none => .ok (.int 0)
  | v => match v.length? with
    | some n => .ok (.int n)
    | none => .error (.type (.noLength v.qualifiedTypeName))

/-- Adds an entry to a mapping. -/
def addEntry (entries : List (Value × Value)) (key value : Value) :
    Except Fault (List (Value × Value)) := do
  key.checkKey
  return insertEntry key value entries

/-- Adds the entries that a sequence of pairs gives, the first of which is at `index`. -/
def addPairs (entries : List (Value × Value)) (index : Nat) : List Value → Except Fault (List (Value × Value))
  | [] => .ok entries
  | pair :: pairs => do
    match pair.items with
    | .ok [key, value] => addPairs (← addEntry entries key value) (index + 1) pairs
    | .ok items => throw (.value (.pairLength index items.length))
    | .error (.type _) => throw (.type (.pairSource index))
    | .error f => throw f

/-- Adds keys and values that are given in turns; without its value a last key is left out. -/
def addAlternating (entries : List (Value × Value)) : List Value → Except Fault (List (Value × Value))
  | key :: value :: rest => do addAlternating (← addEntry entries key value) rest
  | _ => .ok entries

/-- A mapping: a copy of one, one of pairs, or one of keys and values given in turns. -/
def mapping (args : List Value) : Except Fault Value :=
  match args with
  | [.dict entries] => .ok (.dict entries)
  | [source] => do return .dict (← addPairs [] 0 (← source.items))
  | args =>
    if args.length % 2 == 1 then .error (.value .oddArguments)
    else .dict <$> addAlternating [] args

/-- Applies a function. -/
def apply (memory : Nat) (f : BuiltinFunction) (args : List Value) : Except Fault Value :=
  match f with
  | .range => numbers memory args
  | .len => lengthOf (args.headD .none)
  | .dict => mapping args

end BuiltinFunction

end TemplateEngine

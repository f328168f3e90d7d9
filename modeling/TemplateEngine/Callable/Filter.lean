/-
The built-in filters. Most of them work on the output form of the value; the ones for collections
take an empty collection for whatever counts as false.
-/
import TemplateEngine.Sorting.Stack
import TemplateEngine.Text.LetterCase
import TemplateEngine.Text.Search
import TemplateEngine.Value.Access
import TemplateEngine.Value.Conversion
import TemplateEngine.Value.Order

namespace TemplateEngine

open TemplateEngine.Text

namespace Value

/-- The items of a value; what counts as false has none. -/
def itemsOrNone (v : Value) : Except Fault (List Value) :=
  if v.truthy then v.items else .ok []

/-- Fails where a value is nothing to go through; one whose reads fail is something. -/
def checkItems (v : Value) : Except Fault Unit :=
  match v.itemsOrNone with
  | .error (.type p) => .error (.type p)
  | _ => .ok ()

/-- A part of an item by name: the value of a key, or an attribute; `none` where there is none. -/
def part (others : Attributes) (item name : Value) : Except Fault Value :=
  match item with
  | dict entries => do
    name.checkKey
    return (valueOfKey? entries name).getD none
  | item => match name with
    | str n => match item.member others n with
      | .found v => .ok v
      | .missing => .ok none
      | .failed f => .error f
    | name => .error (.type (.attributeName name.qualifiedTypeName))

/-- The part of an item that a filter asks for: the item itself where no name is given. -/
def partOrSelf (others : Attributes) (item name : Value) : Except Fault Value :=
  match name with
  | none => .ok item
  | name => part others item name

/-- The type of an argument in messages about texts. -/
def argumentTypeName : Value → String
  | none => "None"
  | v => v.qualifiedTypeName

end Value

namespace BuiltinFilter

open Value (str)

/-- A text made from the output form of a value. -/
def ofOutput (f : String → String) (v : Value) : Except Fault Value := do
  return str (f (← v.outputText))

/-- The value, or another one where it is `none`, or where it counts as false if that is asked. -/
def defaultValue (v fallback whenFalse : Value) : Value :=
  match v with
  | .none => fallback
  | v => if whenFalse.truthy && !v.truthy then fallback else v

/-- Drops white space, or the characters of a text, from both ends. -/
def trimmed (v chars : Value) : Except Fault Value := do
  let text ← v.outputText
  match chars with
  | .none => return str (Text.trim text)
  | .str drop => return str (String.ofList (trimBy (drop.toList.contains ·) text.toList))
  | _ => throw (.type .trimArgument)

/-- The number of items, or of characters of the output form. -/
def lengthOf (v : Value) : Except Fault Value :=
  match v.length? with
  | some n => .ok (.int n)
  | none => do return .int (← v.outputText).length

/-- Output texts with a separator between them. Where parts of items are asked for, that there are
items is checked before the separator is read, and else after it. -/
def joined (others : Attributes) (v separator name : Value) : Except Fault Value := do
  match name with
  | .none => pure ()
  | _ => v.checkItems
  let between ← separator.plainText
  let texts ← (← v.itemsOrNone).mapM fun item => do (← item.partOrSelf others name).outputText
  return str (between.intercalate texts)

/-- A text argument of a replacement. -/
def replacementText (position : Nat) : Value → Except Fault String
  | .str s => .ok s
  | v => .error (.type (.replaceArgument position v.argumentTypeName))

/-- Replaces a part of the output form, everywhere or a number of times. -/
def replaced (v old new count : Value) : Except Fault Value := do
  let text ← v.outputText
  let limit ← match count with
    | .none => pure none
    | count => some <$> count.toWhole
  let old ← replacementText 1 old
  let new ← replacementText 2 new
  if limit.any (!isIndex ·) then throw (.overflow .size)
  return str (Text.replace text old new (limit.bind fun n => if n < 0 then none else some n.toNat))

/-- The integer of a value, read through a floating point number if need be; else the fallback. -/
def wholeOr (v fallback : Value) : Except Fault Value :=
  orElseOnMisfit (.int <$> v.toWhole) fun _ =>
    orElseOnMisfit (do return .int (← (Numeric.float (← v.toFloat)).toInt)) fun _ => .ok fallback

/-- The floating point number of a value, or the fallback; a `nan` stays the one it is. -/
def floatOr (v fallback : Value) : Except Fault Value :=
  match v with
  | .nan m => .ok (.nan m)
  | v => orElseOnMisfit (.float <$> v.toFloat) fun _ => .ok fallback

/-- A text or the items of a collection in reverse order. -/
def reversed : Value → Except Fault Value
  | .str s => .ok (str (String.ofList s.toList.reverse))
  | v => do return .list (← v.itemsOrNone).reverse

/-- The items in order of themselves or of a part of theirs. -/
def sortedItems (others : Attributes) (v falling name : Value) : Except Fault Value := do
  let items ← v.itemsOrNone
  let keyed ← items.mapM fun item => do return (← item.partOrSelf others name, item)
  let smaller : Smaller (Value × Value) := fun a b => a.1.ordered .lt b.1
  let result ← if falling.truthy then sortedFalling smaller keyed else sorted smaller keyed
  return .list (result.map (·.2))

/-- Applies a filter to a value and its further arguments; those left out have their defaults. -/
def apply (f : BuiltinFilter) (others : Attributes) (v : Value) (args : List Value) : Except Fault Value :=
  let arg (i : Nat) (fallback : Value) : Value := args[i]?.getD fallback
  match f with
  | .default => .ok (defaultValue v (arg 0 (str "")) (arg 1 (.bool false)))
  | .upper => ofOutput Text.upper v
  | .lower => ofOutput Text.lower v
  | .capitalize => ofOutput Text.capitalize v
  | .title => ofOutput Text.title v
  | .trim => trimmed v (arg 0 .none)
  | .length => match v with
    | .none => .ok (.int 0)
    | v => lengthOf v
  | .join => joined others v (arg 0 (str "")) (arg 1 .none)
  | .first => do return (← v.itemsOrNone).headD .none
  | .last => do return (← v.itemsOrNone).getLastD .none
  | .replace => replaced v (arg 0 .none) (arg 1 .none) (arg 2 .none)
  | .escape => ofOutput escapeMarkup v
  | .int => wholeOr v (arg 0 (.int 0))
  | .float => floatOr v (arg 0 (.float 0.0))
  | .string => ofOutput id v
  | .reverse => reversed v
  | .sort => sortedItems others v (arg 0 (.bool false)) (arg 1 .none)

end BuiltinFilter

end TemplateEngine

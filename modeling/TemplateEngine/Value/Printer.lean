/-
The text of values: the output form, the plain form and the quoted form, in which the parts of
collections are written. Integers beyond the limit on digits have no text.
-/
import TemplateEngine.Fault
import TemplateEngine.Number.Notation
import TemplateEngine.Text.Quoted
import TemplateEngine.Value.Basic

namespace TemplateEngine

open TemplateEngine.Number TemplateEngine.Text

/-- The name under which a callable is shown. -/
def Callable.name : Callable → String
  | filter f => match f with
    | .default => "default" | .upper => "upper" | .lower => "lower" | .capitalize => "capitalize"
    | .title => "title" | .trim => "trim" | .length => "length" | .join => "join"
    | .first => "first" | .last => "last" | .replace => "replace" | .escape => "escape"
    | .int => "to_int" | .float => "to_float" | .string => "string" | .reverse => "reverse"
    | .sort => "sort"
  | function f => match f with
    | .range => "range_" | .len => "len_" | .dict => "dict_"
  | host name => name

namespace Value

/-- The quoted form of values that have no parts. -/
def quotedAtom : Value → Except Fault String
  | none => .ok "None"
  | bool b => .ok (if b then "True" else "False")
  | int n => match intText? n with
    | some t => .ok t
    | Option.none => .error (.value .digitsWritten)
  | float x => .ok (floatText x)
  | nan _ => .ok (floatText (0.0 / 0.0))
  | str s => .ok (quoted s)
  | bytes bs => .ok (quotedBytes bs)
  | callable c => .ok ("<function " ++ c.name ++ ">")
  | loop index0 length => .ok s!"LoopInfo(index0={index0}, length={length})"
  | v => .ok ("<" ++ v.typeName ++ " object>")

mutual

/-- The quoted form: texts in quotes, collections part by part. -/
def quotedForm : Value → Except Fault String
  | list items => do
    return "[" ++ ", ".intercalate (← quotedItems items) ++ "]"
  | tuple items => do
    let parts ← quotedItems items
    return "(" ++ ", ".intercalate parts ++ (if parts.length == 1 then ",)" else ")")
  | dict entries => do
    return "\x7b" ++ ", ".intercalate (← quotedEntries entries) ++ "\x7d"
  | record fields => do
    return "namespace(" ++ ", ".intercalate (← quotedFields fields) ++ ")"
  | v => quotedAtom v

/-- The quoted forms of some values. -/
def quotedItems : List Value → Except Fault (List String)
  | [] => .ok []
  | v :: vs => do
    let t ← quotedForm v
    return t :: (← quotedItems vs)

/-- The quoted forms of the entries of a mapping. -/
def quotedEntries : List (Value × Value) → Except Fault (List String)
  | [] => .ok []
  | (k, v) :: es => do
    let key ← quotedForm k
    let value ← quotedForm v
    return (key ++ ": " ++ value) :: (← quotedEntries es)

/-- The quoted forms of the fields of an object. -/
def quotedFields : List (String × Value) → Except Fault (List String)
  | [] => .ok []
  | (name, v) :: fs => do
    let value ← quotedForm v
    return (name ++ "=" ++ value) :: (← quotedFields fs)

end

/-- The plain form: a text is its own, all else is quoted. -/
def plainText : Value → Except Fault String
  | str s => .ok s
  | v => v.quotedForm

/-- The output form: nothing is written for `none`, truth values are written in lower case. -/
def outputText : Value → Except Fault String
  | none => .ok ""
  | bool b => .ok (if b then "true" else "false")
  | v => v.plainText

end Value

end TemplateEngine

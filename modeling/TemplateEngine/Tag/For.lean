/-
The family `for`: its body is rendered once for each item, in a scope of its own that binds the
targets and the state of the loop; without items an `empty` tag is rendered instead.
-/
import TemplateEngine.Tag.Plugin
import TemplateEngine.Tag.Shape

namespace TemplateEngine.ForTag

/-- Reads the targets and the source of the items. -/
def readArgs (tag : String) (role : TagRole) (signature : String) : Except ArgumentProblem TagArgs := do
  if role = .inside then
    requireBlank tag signature
    return .none
  else match loopShape? signature with
    | some (target, second, source) => return .loop target second (← readExpr source)
    | none => throw (.loopShape signature)

/-- The items of a value: none of `none`; of a mapping its keys, or its entries for two targets. -/
def collect (v : Value) (pairs : Bool) : Except EvalError (List Value) :=
  match v with
  | .none => .ok []
  | .dict entries => .ok (entries.map fun e => if pairs then .tuple [e.1, e.2] else e.1)
  | .list items => .ok items
  | .tuple items => .ok items
  | v => .error (.iteration v.typeName)

/-- Binds the targets to an item; for two targets it must consist of two items. -/
def bind (target : String) (second : Option String) (item : Value) : Except Failure Bindings :=
  match second with
  | none => .ok [(target, item)]
  | some second => match item.items with
    | .ok [a, b] => .ok (Bindings.insert second b [(target, a)])
    | .error (.foreign kind text) => .error (.fault (.foreign kind text))
    | _ => do
      let shown ← liftFault item.quotedForm
      .error (.evaluation (.unpacking shown [target, second]))

/-- Renders the rounds from `index0` on; the loop state wins over a target of its name. -/
def rounds (target : String) (second : Option String) (s : Scope) (children : ChildrenRenderer)
    (length index0 : Nat) : List Value → Render String
  | [] => return ""
  | item :: items => do
    let b ← Render.ofResult (bind target second item)
    let text ← children (s.child (b.insert "loop" (.loop index0 length))) .taken .all
    let rest ← rounds target second s children length (index0 + 1) items
    return text ++ rest

/-- Renders an `empty` tag unless the loop had items. -/
def pick (s : Scope) (children : ChildrenRenderer) : Selector → Render Produced
  | .taken => return .text ""
  | _ => .text <$> children s .taken .all

/-- Renders a tag of the family. -/
def render (t : Tag) (s : Scope) (services : Services) (children : ChildrenRenderer) : Render Outcome :=
  match t.role with
  | .inside => return .choice (pick s children)
  | _ =>
    match t.args with
    | .loop target second iterable => do
      let v ← Render.ofResult (services.evaluate iterable s)
      let items ← Render.ofResult ((collect v second.isSome).mapError .evaluation)
      if items.isEmpty then .text <$> children s .pending .insideTags
      else .text <$> rounds target second s children items.length 0 items
    | _ => throw (.fault (.foreign .attribute "'NoneType' object has no attribute 'iterable'"))

/-- The family. -/
def plugin : TagPlugin where
  label := "ForTag"
  family := "for"
  names := ["for"]
  insideNames := ["empty"]
  finalNames := ["empty"]
  readArgs := readArgs
  render := render

end TemplateEngine.ForTag

/-
The family `switch`: a value, any number of `case` tags with candidates, and a `default`. The value
is passed as selector from case to case until one has it among its candidates. Only inside tags are
rendered, so that what stands between `switch` and its first case is not.
-/
import TemplateEngine.Tag.Plugin

namespace TemplateEngine.SwitchTag

/-- The candidates of a case are read as the items of a list. -/
def readArgs (tag : String) (_ : TagRole) (signature : String) : Except ArgumentProblem TagArgs := do
  if tag == "default" then
    requireBlank tag signature
    return .none
  else if tag == "case" then
    return .expr (← readExpr ("[" ++ (← requireSignature tag signature) ++ "]"))
  else readSignature tag signature

/-- Renders an inside tag unless a branch was taken before it; a case that does not have the value
among its candidates passes it on. The value is held while the candidates are evaluated. -/
def pick (t : Tag) (s : Scope) (services : Services) (children : ChildrenRenderer) (selector : Selector) :
    Render Produced :=
  match selector with
  | .taken => return .text ""
  | selector =>
    if t.name == "default" then .text <$> children s .taken .all
    else match selector with
      | .subject v => do
        let candidates ← t.evaluate services (s.holding v)
        if ← Render.ofResult (liftFault (candidates.contains v)) then .text <$> children s .taken .all
        else .text <$> children s selector .insideTags
      | _ => throw (.fault (.type (.outsideSwitch t.markup.text)))

/-- Renders a tag of the family. -/
def render (t : Tag) (s : Scope) (services : Services) (children : ChildrenRenderer) : Render Outcome :=
  match t.role with
  | .opening => do
    let v ← t.evaluate services s
    .text <$> children s (.subject v) .insideTags
  | _ => return .choice (pick t s services children)

/-- The family. -/
def plugin : TagPlugin where
  label := "SwitchTag"
  family := "switch"
  names := ["switch"]
  insideNames := ["case", "default"]
  finalNames := ["default"]
  readArgs := readArgs
  render := render

end TemplateEngine.SwitchTag

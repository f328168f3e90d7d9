/-
The family `with`: its body is rendered in a scope that binds one more name.
-/
import TemplateEngine.Tag.Plugin
import TemplateEngine.Tag.Shape

namespace TemplateEngine.WithTag

/-- Reads the name and the source of its value. -/
def readArgs (_ : String) (_ : TagRole) (signature : String) : Except ArgumentProblem TagArgs :=
  match bindingShape? signature with
  | some (target, source) => do return .binding target (← readExpr source)
  | none => .error (.bindingShape signature)

/-- Renders a tag of the family. -/
def render (t : Tag) (s : Scope) (services : Services) (children : ChildrenRenderer) : Render Outcome :=
  match t.args with
  | .binding target value => do
    let v ← Render.ofResult (services.evaluate value s)
    .text <$> children (s.child [(target, v)]) .absent .all
  | _ => throw (.fault (.foreign .attribute "'NoneType' object has no attribute 'value'"))

/-- The family. -/
def plugin : TagPlugin where
  label := "WithTag"
  family := "with"
  names := ["with"]
  readArgs := readArgs
  render := render

end TemplateEngine.WithTag

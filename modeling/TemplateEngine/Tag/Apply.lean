/-
The family `apply`: the text of its body passes through filters. The signature is read as the rest of
a pipeline that starts with a reserved name, to which the text is bound.
-/
import TemplateEngine.Tag.Plugin

namespace TemplateEngine.ApplyTag

/-- The name that the text of the body is bound to. -/
def bodyName : String := "__sentinel__"

/-- Reads a chain of filters. -/
def readArgs (tag : String) (_ : TagRole) (signature : String) : Except ArgumentProblem TagArgs := do
  let e ← readExpr (bodyName ++ " | " ++ (← requireSignature tag signature))
  match e with
  | .filter _ _ _ => return .expr e
  | _ => throw (.filterChain tag signature)

/-- Renders a tag of the family. -/
def render (t : Tag) (s : Scope) (services : Services) (children : ChildrenRenderer) : Render Outcome := do
  let body ← children s .absent .all
  let v ← t.evaluate services (s.child [(bodyName, .str body)])
  .text <$> Render.ofResult (liftFault v.outputText)

/-- The family. -/
def plugin : TagPlugin where
  label := "ApplyTag"
  family := "apply"
  names := ["apply", "filter"]
  readArgs := readArgs
  render := render

end TemplateEngine.ApplyTag

/-
The family `if`: a condition, any number of `elif` conditions, and an `else`. Each inside tag is a
child of the one before; the first condition that holds renders its children with the selector
`taken`, and one that does not passes `pending` on to the next inside tag.
-/
import TemplateEngine.Tag.Plugin

namespace TemplateEngine.IfTag

/-- All tags of the family but `else` have a condition. -/
def readArgs (tag : String) (_ : TagRole) (signature : String) : Except ArgumentProblem TagArgs := do
  if tag == "else" then
    requireBlank tag signature
    return .none
  else readSignature tag signature

/-- Renders the body where the condition holds, and else only the next inside tag. -/
def branch (t : Tag) (s : Scope) (services : Services) (children : ChildrenRenderer) : Render String := do
  if (← t.evaluate services s).truthy then children s .taken .all else children s .pending .insideTags

/-- Renders an inside tag unless a branch was taken before it. -/
def pick (t : Tag) (s : Scope) (services : Services) (children : ChildrenRenderer) :
    Selector → Render Produced
  | .taken => return .text ""
  | _ =>
    if t.name == "else" then .text <$> children s .taken .all
    else .text <$> branch t s services children

/-- Renders a tag of the family. -/
def render (t : Tag) (s : Scope) (services : Services) (children : ChildrenRenderer) : Render Outcome :=
  match t.role with
  | .opening => .text <$> branch t s services children
  | _ => return .choice (pick t s services children)

/-- The family. -/
def plugin : TagPlugin where
  label := "IfTag"
  family := "if"
  names := ["if"]
  insideNames := ["elif", "else"]
  finalNames := ["else"]
  readArgs := readArgs
  render := render

end TemplateEngine.IfTag

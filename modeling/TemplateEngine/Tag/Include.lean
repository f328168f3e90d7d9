/-
The singular tag `include`: another template is rendered in its place, inside of the same scope.
-/
import TemplateEngine.Tag.Plugin

namespace TemplateEngine.IncludeTag

/-- Renders a tag of the family. -/
def render (t : Tag) (s : Scope) (services : Services) (_ : ChildrenRenderer) : Render Outcome := do
  let v ← t.evaluate services s
  let id ← Render.ofResult (liftFault v.outputText)
  .text <$> services.renderInclude id s t.template

/-- The family. -/
def plugin : TagPlugin where
  label := "IncludeTag"
  family := "include"
  names := ["include"]
  singular := true
  readArgs := fun tag _ signature => readSignature tag signature
  render := render

end TemplateEngine.IncludeTag

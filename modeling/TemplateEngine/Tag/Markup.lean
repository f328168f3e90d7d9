/-
The markup of a tag: a name and, after white space, its signature.
-/
import TemplateEngine.Text.CharClass

namespace TemplateEngine

open TemplateEngine.Text

/-- What stands between the delimiters of a tag. -/
structure TagMarkup where
  name : String
  signature : String
  deriving DecidableEq, Repr

namespace TagMarkup

/-- Takes the first word as name and the rest, without the white space around it, as signature. -/
def ofPayload? (payload : String) : Option TagMarkup :=
  let cs := payload.toList.dropWhile isBlank
  let name := cs.takeWhile (!isBlank ·)
  if name.isEmpty then none
  else some ⟨String.ofList name, String.ofList (trimBy isBlank (cs.dropWhile (!isBlank ·)))⟩

/-- The tag as it is written. -/
def text (m : TagMarkup) : String :=
  "\x7b% " ++ trim (m.name ++ " " ++ m.signature) ++ " %\x7d"

end TagMarkup

end TemplateEngine

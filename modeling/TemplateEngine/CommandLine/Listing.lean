/-
The listing of tags: an object with one list, in which each tag is an object of texts, all of them
spread over lines.
-/
import TemplateEngine.Tag.Registry

namespace TemplateEngine.CommandLine

open TemplateEngine.Text

/-- How a listing writes one character of a text. -/
def listedChar (c : Char) : String :=
  if c == '"' || c == '\\' then String.ofList ['\\', c]
  else if c == '\n' then "\\n"
  else if c == '\r' then "\\r"
  else if c == '\t' then "\\t"
  else if c.toNat == 8 then "\\b"
  else if c.toNat == 12 then "\\f"
  else if c.toNat < 32 then "\\u" ++ hex 4 c.toNat
  else String.singleton c

/-- A text in a listing. -/
def listedText (s : String) : String :=
  "\"" ++ String.join (s.toList.map listedChar) ++ "\""

/-- Lines between an opening and a closing one, each `indent` deeper and all but the last with a
comma. -/
def framed (opening closing : String) (indent : String) (items : List String) : String :=
  if items.isEmpty then opening ++ closing
  else
    let inner := indent ++ "  "
    opening ++ "\n" ++ inner ++ (",\n" ++ inner).intercalate items ++ "\n" ++ indent ++ closing

/-- A field of an object. -/
def listedField (name value : String) : String :=
  listedText name ++ ": " ++ value

/-- The object of a tag. -/
def listedTag (name : String) (route : TagRoute) : String :=
  framed "\x7b" "\x7d" "    "
    [listedField "name" (listedText name), listedField "family" (listedText route.plugin.family),
      listedField "role" (listedText route.role.name)]

/-- The listing of some tags. -/
def listingOf (tags : List (String × TagRoute)) : String :=
  framed "\x7b" "\x7d" "" [listedField "tags" (framed "[" "]" "  " (tags.map fun t => listedTag t.1 t.2))] ++ "\n"

/-- The listing of the tags of a registry, by name. -/
def listing (r : TagRegistry) : String :=
  listingOf r.sortedRoutes

end TemplateEngine.CommandLine

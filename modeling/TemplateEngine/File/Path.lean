/-
Paths. A path is written with slashes; empty components and those of a single dot mean nothing and
are left out, while a double dot stays until the path is resolved against a directory.
-/
import TemplateEngine.Fault
import TemplateEngine.Text.Quoted
import TemplateEngine.Text.Search

namespace TemplateEngine

open TemplateEngine.Text

/-- A path as it is written. -/
structure Path where
  /-- The slashes that it starts with: none, one, or two. -/
  anchor : String
  parts : List String
  deriving DecidableEq, Repr

namespace Path

/-- Whether a path starts from the topmost directory. -/
def absolute (p : Path) : Bool :=
  p.anchor != ""

/-- Whether a component between slashes means something. -/
def isPart (s : String) : Bool :=
  s != "" && s != "."

/-- The components of a text. -/
def partsOf (s : String) : List String :=
  ((splitAt '/' s.toList).map String.ofList).filter isPart

/-- The anchor of a text. Exactly two slashes at its start are kept; more of them count as one. -/
def anchorOf (s : String) : String :=
  match (s.toList.takeWhile (· == '/')).length with
  | 0 => ""
  | 2 => "//"
  | _ => "/"

/-- Reads a path. -/
def ofString (s : String) : Path :=
  ⟨anchorOf s, partsOf s⟩

/-- The text of a path; the one without anchor and components is a dot. -/
def text (p : Path) : String :=
  if !p.absolute && p.parts.isEmpty then "." else p.anchor ++ "/".intercalate p.parts

/-- The path without its last component. -/
def parent (p : Path) : Path :=
  { p with parts := p.parts.dropLast }

/-- The path `q` seen from `p`. -/
def join (p q : Path) : Path :=
  if q.absolute then q else { p with parts := p.parts ++ q.parts }

/-- The last component, empty where there is none. -/
def name (p : Path) : String :=
  p.parts.getLastD ""

/-- Whether a name has an extension: a dot that is neither its first nor its last character, with no
other dot after it. -/
def hasExtension (name : String) : Bool :=
  let tail := name.toList.reverse.takeWhile (· != '.')
  !tail.isEmpty && tail.length + 1 < name.length

/-- Replaces the last component. The new name must be one component. -/
def withName (p : Path) (name : String) : Except Fault Path :=
  if p.name == "" then .error (.value (.pathWithoutName (quoted p.text)))
  else if name.toList.getLast? == some '/' || (ofString name).absolute || (partsOf name).length != 1 then
    .error (.value (.pathName (quoted name)))
  else .ok { p with parts := p.parts.dropLast ++ partsOf name }

/-- Goes from a directory along components: a double dot leads to the directory above, and from the
topmost one nowhere. -/
def follow (directory : List String) : List String → List String
  | [] => directory
  | part :: parts =>
    follow (if part == ".." then directory.dropLast else directory ++ [part]) parts

/-- The places that lie on the way from a directory along components. -/
def way (directory : List String) : List String → List (List String)
  | [] => [directory]
  | part :: parts =>
    directory :: way (if part == ".." then directory.dropLast else directory ++ [part]) parts

/-- The components from the topmost directory, without dots, of a path seen from a directory. -/
def resolve (directory : List String) (p : Path) : List String :=
  follow (if p.absolute then [] else directory) p.parts

/-- Resolves a path whose components can be the names of files: none of them holds a null. -/
def locate (directory : List String) (p : Path) : Except Fault (List String) :=
  if p.parts.any (·.toList.contains '\x00') then .error (.value .nullInPath)
  else .ok (p.resolve directory)

/-- The text of the path to the end of some components from the topmost directory. -/
def absoluteText (parts : List String) : String :=
  (⟨"/", parts⟩ : Path).text

end Path

end TemplateEngine

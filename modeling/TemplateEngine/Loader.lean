/-
Loaders. A loader gives the text of a template for its id and the template that asks for it. What it
gives is a value, since a loader of the embedding program may give anything.

The loader of a directory finds templates in the files below it. An id is a path from that directory;
one that starts with a dot component is a path from the place of the template that asks for it. No id
leads out of the directory.
-/
import TemplateEngine.Failure
import TemplateEngine.Value.Basic

namespace TemplateEngine

open TemplateEngine.Text

/-- A source of template texts. -/
structure Loader where
  load : String → Option String → Except Failure Value

/-- A loader over texts with names; the first text of a name counts. -/
def Loader.ofTexts (texts : List (String × String)) : Loader where
  load id _ := match texts.find? (·.1 == id) with
    | some (_, text) => .ok (.str text)
    | none => .error (.load (.notFound id none))

/-! ## Directories -/

/-- A directory of templates, given by its components from the topmost directory. -/
structure TemplateDirectory where
  root : List String
  encoding : String := "utf-8"
  /-- What is added to names without an extension. -/
  suffix : String := ""

namespace TemplateDirectory

/-- A text with slashes for its backslashes. -/
def withSlashes (s : String) : String :=
  String.ofList (s.toList.map fun c => if c == '\\' then '/' else c)

/-- Whether an id is a path from the place of the template that asks for it. -/
def isRelative (id : String) : Bool :=
  "./".toList.isPrefixOf id.toList || "../".toList.isPrefixOf id.toList

/-- The path from the directory that an id means. A template without a name has no place. -/
def pathFrom (base : Option String) (id : String) : Path :=
  let path := Path.ofString (withSlashes id)
  match base with
  | none => path
  | some base =>
    if base != "" && isRelative id then (Path.ofString (withSlashes base)).parent.join path else path

/-- Adds the suffix of the directory to a path whose name has no extension. -/
def addSuffix (d : TemplateDirectory) (p : Path) : Except Fault Path :=
  if d.suffix == "" || Path.hasExtension p.name then .ok p else p.withName (p.name ++ d.suffix)

/-- The place of a template. -/
def resolve (d : TemplateDirectory) (id : String) (base : Option String) : Except Failure (List String) :=
  if blank id then .error (.load .emptyId)
  else if (Path.ofString (withSlashes id)).absolute then .error (.load (.absoluteId id))
  else do
    let path ← liftFault (d.addSuffix (pathFrom base id))
    let place ← liftFault (path.locate d.root)
    if d.root.isPrefixOf place then return place else throw (.load (.outsideRoot id))

/-- The text of the file at a place. -/
def fileText (d : TemplateDirectory) (files : FileTree) (id : String) (place : List String) :
    Except Failure String :=
  let path := Path.absoluteText place
  match (files.find [] place).read files.codecs (quoted path) d.encoding with
  | .ok text => .ok text
  | .error .missing => .error (.load (.notFound id (some path)))
  | .error (.unknownEncoding name) => .error (.fault (.foreign .lookup s!"unknown encoding: {name}"))
  | .error (.undecodable .unmarked) => .error (.fault (.value (.undecodable .unmarked)))
  | .error (.failed f) => .error (.fault f)
  | .error problem => .error (.load (.unreadable id problem))

/-- The loader of a directory. -/
def loader (d : TemplateDirectory) (files : FileTree) : Loader where
  load id base := do
    let place ← d.resolve id base
    return .str (← d.fileText files id place)

end TemplateDirectory

end TemplateEngine

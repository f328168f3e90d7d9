/-
Documents in files: mappings, and the settings of an environment. What a text means as a document is
up to a reader of documents. A search path in a file is seen from the directory of the file.
-/
import TemplateEngine.Config.Basic

namespace TemplateEngine

/-- A reader of documents: the value that a text writes, or the fault with which it is refused. -/
abbrev DocumentReader := String → Except Fault Value

/-- Whether a path leads to a file. -/
def FileTree.isFile (files : FileTree) (directory : List String) (p : Path) : Bool :=
  match files.entryAt directory p with
  | .file _ => true
  | _ => false

/-- The fault of a file that is not read. -/
def ReadProblem.fault (p : ReadProblem) : Fault :=
  match p with
  | .undecodable problem => .value (.undecodable problem)
  | .missing => .foreign .missingFile p.message
  | .unknownEncoding _ => .foreign .lookup p.message
  | .failed f => f
  | p => .foreign .system p.message

/-- Reads a file that holds a mapping; whatever counts as false stands for an empty one. -/
def readMapping (read : DocumentReader) (files : FileTree) (directory : List String) (p : Path) :
    Except Fault (List (Value × Value)) := do
  let text ← ((files.entryAt directory p).read .common (Text.quoted p.text) "utf-8").mapError ReadProblem.fault
  let v ← read text
  if !v.truthy then return []
  match v with
  | .dict entries => return entries
  | _ => throw (.value (.noMapping p.text))

namespace Config

/-- Reads the settings in a file. -/
def ofFile (read : DocumentReader) (files : FileTree) (directory : List String) (path : String) :
    Except Fault Config := do
  let p := Path.ofString path
  if !files.isFile directory p then
    throw (.foreign .missingFile s!"Config file not found: {p.text}")
  let entries ← readMapping read files directory p
  let c ← ofEntries entries
  let searchPath := Path.ofString (← requireText c.searchPath)
  if searchPath.absolute then return c
  let place ← (p.parent.join searchPath).locate directory
  ofEntries (insertEntry (.str "search_path") (.str (Path.absoluteText place)) entries)

end Config

end TemplateEngine

/-
Files: a tree of directories and files given by the files' paths, the files that a path leads to, and
reading them as text.
-/
import TemplateEngine.File.Path
import TemplateEngine.Text.Encoding

namespace TemplateEngine

open TemplateEngine.Text

/-- Why a file is not read. -/
inductive ReadProblem where
  | missing
  | isDirectory (path : String)
  | notDirectory (path : String)
  | undecodable (problem : DecodeProblem)
  | unknownEncoding (name : String)
  /-- Any other fault of a codec. -/
  | failed (f : Fault)
  deriving DecidableEq, Repr

/-- The text of the problem; paths are quoted. -/
def ReadProblem.message : ReadProblem → String
  | missing => "No such file or directory"
  | isDirectory path => s!"[Errno 21] Is a directory: {path}"
  | notDirectory path => s!"[Errno 20] Not a directory: {path}"
  | undecodable problem => problem.message
  | unknownEncoding name => s!"unknown encoding: {name}"
  | failed f => f.message

/-- Codecs: the characters of some bytes in the encoding of a name. -/
abbrev Codecs := String → List UInt8 → Except ReadProblem (List Char)

/-- The codecs of the encodings in `Encoding`; all other names are unknown to them. -/
def Codecs.common : Codecs := fun encoding bytes =>
  match Encoding.ofName? encoding with
  | none => .error (.unknownEncoding encoding)
  | some e => (decode e bytes).mapError .undecodable

/-- Files with their bytes, and directories. Those on the way to a file and the topmost one need not
be named. -/
structure FileTree where
  files : List (List String × List UInt8)
  directories : List (List String) := []
  /-- The codecs that templates are read with. -/
  codecs : Codecs := .common

/-- What a path leads to. -/
inductive FileEntry where
  | file (bytes : List UInt8)
  | directory
  | missing
  /-- The way leads through a file. -/
  | throughFile

namespace FileTree

/-- What stands at some components from the topmost directory. -/
def entry (t : FileTree) (parts : List String) : FileEntry :=
  match t.files.find? (·.1 == parts) with
  | some (_, bytes) => .file bytes
  | none =>
    if parts.isEmpty || t.directories.contains parts || t.files.any fun f => parts.isPrefixOf f.1 then
      .directory
    else .missing

/-- Goes from an existing directory along components; each one but the last must be a directory. -/
def find (t : FileTree) (directory : List String) : List String → FileEntry
  | [] => t.entry directory
  | part :: parts =>
    let next := if part == ".." then directory.dropLast else directory ++ [part]
    match t.entry next, parts with
    | .directory, parts => find t next parts
    | .file bytes, [] => .file bytes
    | .file _, _ :: _ => .throughFile
    | entry, _ => entry

/-- What a path, seen from a directory, leads to. -/
def entryAt (t : FileTree) (directory : List String) (p : Path) : FileEntry :=
  t.find (if p.absolute then [] else directory) p.parts

end FileTree

/-- Reads what a path led to as text; `shown` is the path in quotes. The file has to be there before
the encoding is looked at. -/
def FileEntry.read (entry : FileEntry) (codecs : Codecs) (shown encoding : String) : Except ReadProblem String :=
  match entry with
  | .missing => .error .missing
  | .directory => .error (.isDirectory shown)
  | .throughFile => .error (.notDirectory shown)
  | .file bytes => (codecs encoding bytes).map fun cs => String.ofList (plainLines cs)

end TemplateEngine

/-
The program, apart from the reader of documents. A run is pure once the files that it looks at are
known, so they are found out by running: whatever place a run asks for is read, until a run asks for
no new one.
-/
import TemplateEngine.CommandLine.Run

namespace TemplateEngine.CommandLine

/-- Adds what stands at a place to the known files. -/
def lookAt (files : FileTree) (place : List String) : IO FileTree := do
  try
    let bytes ← IO.FS.readBinFile (Path.absoluteText place)
    return { files with files := (place, bytes.toList) :: files.files }
  catch
    | .inappropriateType _ 21 _ => return { files with directories := place :: files.directories }
    | _ => return files

/-- Reads all places that an invocation looks at, besides those that were seen. -/
partial def explore (inv : Invocation) (w : World) (seen : List (List String)) : IO World := do
  let places := (inv.places w).eraseDups.filter (!seen.contains ·)
  if places.isEmpty then return w
  let files ← places.foldlM lookAt w.files
  explore inv { w with files := files } (places ++ seen)

/-- Reads the rest of the input. -/
partial def readInput (stream : IO.FS.Stream) (before : String) : IO String := do
  let line ← stream.getLine
  if line.isEmpty then return before
  readInput stream (before ++ line)

/-- Whether an invocation reads its template from the input. -/
def Invocation.readsInput (inv : Invocation) : Bool :=
  match inv.command with
  | .render template asText _ => template == "-" && !asText
  | .tags => false

/-- Runs an invocation on the files of the system. -/
def perform (read : DocumentReader) (inv : Invocation) : IO UInt32 := do
  let directory := Path.partsOf (← IO.currentDir).toString
  let input ← if inv.readsInput then readInput (← IO.getStdin) "" else pure ""
  let w ← explore inv
    { files := { files := [] }, directory := directory, input := String.ofList (Text.plainLines input.toList),
      document := read } []
  match inv.run w with
  | .stopped s => return s.code.toUInt32
  | .reported r =>
    IO.print r.output
    IO.eprint r.errors
    return r.code.toUInt32
  | .failed f =>
    IO.eprintln f.message
    return 1

/-- Runs a command line. -/
def program (read : DocumentReader) (args : List String) : IO UInt32 := do
  match Invocation.read args with
  | .ok inv => perform read inv
  | .error s =>
    if s = .usage then IO.eprintln "usage: tmpl [-h] [--version] [-v] render|tags ..."
    return s.code.toUInt32

end TemplateEngine.CommandLine

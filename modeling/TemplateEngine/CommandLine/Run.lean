/-
Running an invocation. All of the output is made before anything is written: a run either writes the
rendered text, or a message and nothing else. What a verbose run logs goes where messages go.
-/
import TemplateEngine.CommandLine.Invocation
import TemplateEngine.CommandLine.Listing
import TemplateEngine.Config.File
import TemplateEngine.Environment.Render

namespace TemplateEngine.CommandLine

/-- The world of a run: the files, the working directory, the text of the input, and what the program
leaves to others. -/
structure World where
  files : FileTree
  directory : List String
  input : String := ""
  /-- The reader of the documents in which settings and contexts are written. -/
  document : DocumentReader
  /-- The scheduler of what is rendered together. -/
  gather : Gather := Gather.inOrder
  /-- The lines that are logged in a run. -/
  log : Invocation → String := fun _ => ""

/-- What a run writes, and its exit code. -/
structure Report where
  code : Nat
  output : String
  errors : String
  deriving DecidableEq, Repr

/-- How a run ends. -/
inductive Ending where
  | stopped (s : Stop)
  | reported (r : Report)
  /-- A fault that is not meant for the reader. -/
  | failed (f : Failure)

/-- A file name that was given and is not empty. -/
def givenFile : Option String → Option String
  | some "" => none
  | file => file

namespace Invocation

/-- The settings of a run. A search path on the command line takes the place of the one in the file. -/
def settings (inv : Invocation) (w : World) : Except Fault Config := do
  let c ← match givenFile inv.config with
    | some path => Config.ofFile w.document w.files w.directory path
    | none => .ok {}
  match inv.searchPath with
  | some path => Config.checked { c with searchPath := .str path }
  | none => return c

/-- The context in a file. -/
def readContext (w : World) (file : Option String) : Except Fault Value :=
  match givenFile file with
  | none => .ok (.dict [])
  | some path => do
    let p := Path.ofString path
    if !w.files.isFile w.directory p then throw (.value (.missingContext p.text))
    return .dict (← readMapping w.document w.files w.directory p)

/-- The text of a template text. Its blocks are rendered together if the settings ask for it. -/
def renderText (w : World) (c : Config) (env : Environment) (context : Value) (source name : String) : Render String :=
  if c.parallelChildren.truthy then env.renderStringTogether w.gather source context name
  else env.renderString source context name

/-- The text of the template of an id, rendered the same way. -/
def renderId (w : World) (c : Config) (env : Environment) (context : Value) (id : String) : Render String :=
  if c.parallelChildren.truthy then env.renderTogether w.gather id context else env.render id context

/-- The output of a run. -/
def output (inv : Invocation) (w : World) : Render String := do
  let c ← Render.ofResult (liftFault (inv.settings w))
  let env ← Render.ofResult (liftFault (c.environment w.files w.directory))
  match inv.command with
  | .tags => return listing env.registry
  | .render template asText file =>
    let context ← Render.ofResult (liftFault (readContext w file))
    if asText then renderText w c env context template "(string)"
    else if template == "-" then renderText w c env context w.input "(stdin)"
    else renderId w c env context template

/-- Whether a failure is reported: those for the reader, wrong values, and missing files. -/
def isReported : Failure → Bool
  | .fault (.value _) => true
  | .fault (.foreign .missingFile _) => true
  | f => f.forReader

/-- What is logged: nothing, unless the invocation is verbose. -/
def logged (inv : Invocation) (w : World) : String :=
  if inv.verbose then w.log inv else ""

/-- The report of a result, behind what was logged. -/
def ending (log : String) : Except Failure String → Ending
  | .ok text => .reported ⟨0, text, log⟩
  | .error f =>
    if isReported f then .reported ⟨2, "", log ++ Text.trimEnd f.message ++ "\n"⟩ else .failed f

/-- Runs an invocation. -/
def run (inv : Invocation) (w : World) : Ending :=
  ending (inv.logged w) (inv.output w).run'.1

/-- The places that a run looks at: those on the way to the files of its options and to the templates
that it asks for. -/
def places (inv : Invocation) (w : World) : List (List String) :=
  let toFile (path : String) : List (List String) :=
    let p := Path.ofString path
    Path.way (if p.absolute then [] else w.directory) p.parts
  let context := match inv.command with
    | .render _ _ file => (givenFile file).toList
    | .tags => []
  let toTemplates : Except Failure (List (List String)) := do
    let d ← liftFault do (← inv.settings w).templateDirectory w.directory
    return (inv.output w).run'.2.flatMap fun call => match d.resolve call.id call.base with
      | .ok place => Path.way [] place
      | .error _ => []
  ((givenFile inv.config).toList ++ context).flatMap toFile ++ toTemplates.toOption.getD []

end Invocation

/-- Runs a command line. -/
def run (args : List String) (w : World) : Ending :=
  match Invocation.read args with
  | .error s => .stopped s
  | .ok inv => inv.run w

end TemplateEngine.CommandLine

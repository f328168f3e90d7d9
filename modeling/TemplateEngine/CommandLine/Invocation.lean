/-
Invocations of the program: a command with its options.
-/
import TemplateEngine.CommandLine.Arguments

namespace TemplateEngine.CommandLine

/-- What the program is asked to do. -/
inductive Command where
  /-- Renders a template: one given as a text, one read from the input, or one of the search path. -/
  | render (template : String) (asText : Bool) (context : Option String)
  /-- Lists the tags. -/
  | tags
  deriving DecidableEq, Repr

/-- A command, the file of the settings, the directory of the templates, and whether what the program
does is logged. -/
structure Invocation where
  command : Command
  config : Option String
  searchPath : Option String
  verbose : Bool
  deriving DecidableEq, Repr

/-- The options before the command. -/
def globalOptions : List CommandOption :=
  [⟨["-h", "--help"], .quit⟩, ⟨["--version"], .quit⟩, ⟨["-v", "--verbose"], .flag⟩]

/-- The options of both commands. -/
def commonOptions : List CommandOption :=
  [⟨["--config"], .value⟩, ⟨["--search-path"], .value⟩]

/-- The options of the command that renders. -/
def renderOptions : List CommandOption :=
  [⟨["-h", "--help"], .quit⟩, ⟨["--context"], .value⟩, ⟨["--string"], .flag⟩] ++ commonOptions

/-- The options of the command that lists tags. -/
def tagsOptions : List CommandOption :=
  ⟨["-h", "--help"], .quit⟩ :: commonOptions

/-- Reads the arguments of a command; all of them must mean something. -/
def readCommand (options : List CommandOption) (wanted leftover : Bool) (args : List String) :
    Except Stop Settings := do
  let s ← readArguments options wanted { leftover := leftover } (← classifyAll options args)
  if s.leftover || (wanted && s.positional.isNone) then throw .usage else return s

/-- The invocation of a command with its arguments; `before` is set by the options before it. -/
def ofCommand (name : String) (before : Settings) (args : List String) : Except Stop Invocation :=
  let invocation (command : Command) (s : Settings) : Invocation :=
    ⟨command, s.value? "--config", s.value? "--search-path", before.flags.contains "--verbose"⟩
  if name == "render" then do
    let s ← readCommand renderOptions true before.leftover args
    let command := .render (s.positional.getD "") (s.flags.contains "--string") (s.value? "--context")
    return invocation command s
  else if name == "tags" then do
    let s ← readCommand tagsOptions false before.leftover args
    return invocation .tags s
  else throw .usage

/-- Reads the arguments up to the command, and the command with all that follow it. -/
def ofArguments (s : Settings) : List (Argument × String) → Except Stop Invocation
  | [] => .error .usage
  | (.separator, _) :: _ => .error .usage
  | (.plain, name) :: rest => ofCommand name s (rest.map (·.2))
  | (.option _ none _, _) :: rest => ofArguments { s with leftover := true } rest
  | (.option _ (some o) (some attached), _) :: rest => do
    ofArguments (← takeAttached globalOptions s o attached) rest
  | (.option _ (some o) none, _) :: rest => do ofArguments (← takeAlone s o) rest

/-- Reads a command line. -/
def Invocation.read (args : List String) : Except Stop Invocation := do
  ofArguments {} (← classifyAll globalOptions args)

end TemplateEngine.CommandLine

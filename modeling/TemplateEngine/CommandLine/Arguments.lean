/-
Arguments of a command line. Each argument is an option, the separator after which none is an option,
or plain. A long option may be shortened as long as one option only is meant, and may have its value
after an equals sign; short options may be written together.
-/
import TemplateEngine.Text.CharClass

namespace TemplateEngine.CommandLine

/-- What an option is for: it stands alone, it takes a value, or it shows something and ends the
program. -/
inductive OptionKind where
  | flag | value | quit
  deriving DecidableEq, Repr

/-- An option with its names, the last of which is the one that settings are kept under. -/
structure CommandOption where
  names : List String
  kind : OptionKind
  deriving DecidableEq, Repr

/-- The name that the settings of an option are kept under. -/
def CommandOption.key (o : CommandOption) : String :=
  o.names.getLastD ""

/-- How the program ends before it does anything: what was asked for is shown, or the arguments are
wrong. -/
inductive Stop where
  | shown | usage
  deriving DecidableEq, Repr

/-- The exit code. -/
def Stop.code : Stop → Nat
  | shown => 0
  | usage => 2

/-- What belongs to an option in the same argument: a value after an equals sign, or what follows its
letter. -/
inductive Attachment where
  | value (text : String)
  | letters (text : String)
  deriving DecidableEq, Repr

/-- An argument. An option that is not known has none. -/
inductive Argument where
  | plain
  | separator
  | option (name : String) (o : Option CommandOption) (attached : Option Attachment)
  deriving DecidableEq, Repr

/-! ## Telling arguments apart -/

/-- The options with each of their names. -/
def namedOptions (options : List CommandOption) : List (String × CommandOption) :=
  options.flatMap fun o => o.names.map (·, o)

/-- Whether one text starts with another. -/
def startsWithText (start s : String) : Bool :=
  start.toList.isPrefixOf s.toList

/-- Whether an option is written with a single dash. -/
def isShort (name : String) : Bool :=
  !startsWithText "--" name

/-- The text before the first equals sign and the text after it. -/
def splitValue (arg : String) : String × Option String :=
  let cs := arg.toList
  match cs.dropWhile (· != '=') with
  | [] => (arg, none)
  | _ :: value => (String.ofList (cs.takeWhile (· != '=')), some (String.ofList value))

/-- The options that an argument may shorten, or whose short form it starts with. -/
def candidates (options : List CommandOption) (arg : String) :
    List (String × CommandOption × Option Attachment) :=
  if isShort arg then
    (namedOptions options).filterMap fun n =>
      if n.1.toList == arg.toList.take 2 then
        some (n.1, n.2, some (.letters (String.ofList (arg.toList.drop 2))))
      else if startsWithText arg n.1 then some (n.1, n.2, none)
      else none
  else
    let (start, value) := splitValue arg
    (namedOptions options).filterMap fun n =>
      if startsWithText start n.1 then some (n.1, n.2, value.map .value) else none

/-- Whether an argument is a negative number. -/
def isNegativeNumber (arg : String) : Bool :=
  match arg.toList with
  | '-' :: cs =>
    let rest := cs.dropWhile Text.isDigit
    match rest with
    | [] => !cs.isEmpty
    | '.' :: fraction => !fraction.isEmpty && fraction.all Text.isDigit
    | _ => false
  | _ => false

/-- An argument before the separator. -/
def classify (options : List CommandOption) (arg : String) : Except Stop Argument :=
  if !startsWithText "-" arg || arg == "-" then .ok .plain
  else match (namedOptions options).lookup arg with
    | some o => .ok (.option arg o none)
    | none =>
      let (name, value) := splitValue arg
      match value.bind fun _ => (namedOptions options).lookup name, candidates options arg with
      | some o, _ => .ok (.option name o (value.map .value))
      | none, [(name, o, attached)] => .ok (.option name o attached)
      | none, _ :: _ :: _ => .error .usage
      | none, [] =>
        if isNegativeNumber arg || arg.toList.contains ' ' then .ok .plain
        else .ok (.option arg none none)

/-- All arguments with their texts. -/
def classifyAll (options : List CommandOption) : List String → Except Stop (List (Argument × String))
  | [] => .ok []
  | arg :: args =>
    if arg == "--" then .ok ((.separator, arg) :: args.map (.plain, ·))
    else do
      let a ← classify options arg
      return (a, arg) :: (← classifyAll options args)

/-! ## Reading options and a positional argument -/

/-- What some arguments set: the values of options, the flags, the positional argument, and whether
there are arguments that mean nothing. -/
structure Settings where
  values : List (String × String) := []
  flags : List String := []
  positional : Option String := none
  leftover : Bool := false
  deriving DecidableEq, Repr

/-- The last value of an option. -/
def Settings.value? (s : Settings) (key : String) : Option String :=
  s.values.lookup key

/-- Takes an option that stands alone. -/
def takeAlone (s : Settings) (o : CommandOption) : Except Stop Settings :=
  match o.kind with
  | .flag => .ok { s with flags := o.key :: s.flags }
  | .quit => .error .shown
  | .value => .error .usage

/-- Keeps the value of an option, if it takes one. -/
def takeValue (s : Settings) (o : CommandOption) (value : String) : Except Stop Settings :=
  if o.kind = .value then .ok { s with values := (o.key, value) :: s.values } else .error .usage

/-- Takes short options that are written together: an option and the letters after it, which name
further options, or are the value of the one before them. Letters that name none mean nothing; a
misplaced dash or value counts before anything is shown. -/
def takeTogether (options : List CommandOption) (s : Settings) (o : CommandOption) :
    List Char → Except Stop Settings
  | [] => takeAlone s o
  | letter :: letters =>
    if o.kind = .value then takeValue s o (String.ofList (letter :: letters))
    else if letter == '-' then .error .usage
    else match (namedOptions options).lookup (String.ofList ['-', letter]), letters with
      | none, _ => takeAlone { s with leftover := true } o
      | some next, '=' :: value => do takeAlone (← takeValue s next (String.ofList value)) o
      | some next, letters => do takeAlone (← takeTogether options s next letters) o

/-- Takes an option with what is attached to it. -/
def takeAttached (options : List CommandOption) (s : Settings) (o : CommandOption) :
    Attachment → Except Stop Settings
  | .value text => takeValue s o text
  | .letters text => takeTogether options s o text.toList

/-- Reads arguments in order. A separator belongs to the positional argument before or after it;
`wanted` tells whether there is one at all. -/
def readArguments (options : List CommandOption) (wanted : Bool) (s : Settings) :
    List (Argument × String) → Except Stop Settings
  | [] => .ok s
  | (.plain, arg) :: rest =>
    if wanted && s.positional.isNone then
      match rest with
      | (.separator, _) :: rest => readArguments options wanted { s with positional := some arg } rest
      | rest => readArguments options wanted { s with positional := some arg } rest
    else readArguments options wanted { s with leftover := true } rest
  | (.separator, _) :: rest =>
    if wanted && s.positional.isNone && !rest.isEmpty then readArguments options wanted s rest
    else readArguments options wanted { s with leftover := true } rest
  | (.option _ none _, _) :: rest => readArguments options wanted { s with leftover := true } rest
  | (.option _ (some o) (some attached), _) :: rest => do
    readArguments options wanted (← takeAttached options s o attached) rest
  | (.option _ (some o) none, _) :: rest =>
    match o.kind, rest with
    | .value, (.plain, value) :: rest =>
      readArguments options wanted { s with values := (o.key, value) :: s.values } rest
    | _, rest => do readArguments options wanted (← takeAlone s o) rest

end TemplateEngine.CommandLine

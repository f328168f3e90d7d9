/-
Failures of a render. Errors of templates, expressions, evaluation and loading are meant for the
reader of the message; a fault is what an operation or foreign code left uncaught.
-/
import TemplateEngine.File.Tree
import TemplateEngine.Template.Error

namespace TemplateEngine

/-- A place in a template. -/
structure Location where
  name : String
  line : Nat
  deriving DecidableEq, Repr

/-- The place in front of a message. -/
def Location.text (l : Location) : String :=
  locationText l.name (some l.line)

/-- Why an expression has no value. Keys and items are given in their quoted form. -/
inductive EvalError where
  | undefinedName (name : String)
  | undefinedMember (name type : String)
  | undefinedItem (key type : String)
  | memberRead (name type : String) (f : Fault)
  | itemRead (key type : String) (f : Fault)
  | itemKind (type key : String) (f : Fault)
  | dictKey (key : String) (f : Fault)
  | notCallable (expression : String)
  | unknownFilter (name : String)
  | filterCall (name : String) (f : Fault)
  | functionCall (expression : String) (f : Fault)
  | unaryOperand (symbol type : String)
  | operation (expression : String) (f : Fault)
  | iteration (type : String)
  | unpacking (item : String) (targets : List String)
  | custom (text : String)
  /-- An error at a place. -/
  | located (l : Location) (e : EvalError)
  /-- The source of an output that is no expression. -/
  | outputSource (l : Location) (source : String) (e : ExprError)
  | outputFault (l : Location) (source : String) (f : Fault)
  | tagFault (l : Location) (tag : TagMarkup) (f : Fault)
  deriving DecidableEq, Repr

/-- An output as it is shown in messages. -/
def outputMarkup (source : String) : String :=
  "\x7b\x7b " ++ source ++ " \x7d\x7d"

/-- The text of an evaluation error. -/
def EvalError.message : EvalError → String
  | undefinedName name => s!"'{name}' is undefined"
  | undefinedMember name type => s!"Attribute '{name}' of {type} is undefined"
  | undefinedItem key type => s!"Item {key} of {type} is undefined"
  | memberRead name type f => s!"Error reading attribute '{name}' of {type}: {f.message}"
  | itemRead key type f => s!"Error reading item {key} of {type}: {f.message}"
  | itemKind type key f => s!"Cannot subscript {type} with {key}: {f.message}"
  | dictKey key f => s!"Invalid dictionary key {key}: {f.message}"
  | notCallable expression => s!"'{expression}' is not callable"
  | unknownFilter name => s!"Unknown filter '{name}'"
  | filterCall name f => s!"Error in filter '{name}': {f.message}"
  | functionCall expression f => s!"Error in function '{expression}': {f.message}"
  | unaryOperand symbol type => s!"Bad operand for unary '{symbol}': {type}"
  | operation expression f => s!"Cannot evaluate {expression}: {f.message}"
  | iteration type => s!"Cannot iterate over {type}"
  | unpacking item targets => s!"Cannot unpack {item} into " ++ ", ".intercalate targets
  | custom text => text
  | located l e => l.text ++ e.message
  | outputSource l source e => l.text ++ outputMarkup source ++ ": " ++ e.message
  | outputFault l source f => l.text ++ "Error rendering " ++ outputMarkup source ++ ": " ++ f.message
  | tagFault l tag f => l.text ++ "Error rendering " ++ tag.text ++ ": " ++ f.message

/-- Why a template was not loaded. Places in the file system are given as absolute paths. -/
inductive LoadError where
  | notFound (id : String) (path : Option String)
  | unreadable (id : String) (problem : ReadProblem)
  | failed (id : String) (f : Fault)
  | notText (id type : String)
  | emptyId
  | absoluteId (id : String)
  | outsideRoot (id : String)
  deriving DecidableEq, Repr

/-- The text of a load error. -/
def LoadError.message : LoadError → String
  | notFound id none => s!"Template not found: {id}"
  | notFound id (some path) => s!"Template not found: {id} ({path})"
  | unreadable id problem => s!"Failed to read template {id}: {problem.message}"
  | failed id f => s!"Failed to load template {id}: {f.message}"
  | notText id type => s!"Loader returned {type} for {id}, expected str"
  | emptyId => "Empty template id"
  | absoluteId id => s!"Absolute template paths are not allowed: {id}"
  | outsideRoot id => s!"Template path escapes loader root: {id}"

/-- A failure: an error meant for a reader, or a fault. -/
inductive Failure where
  | template (e : TemplateError)
  | expression (e : ExprError)
  | evaluation (e : EvalError)
  | load (e : LoadError)
  | fault (f : Fault)
  deriving DecidableEq, Repr

namespace Failure

/-- The text of a failure. -/
def message : Failure → String
  | template e => e.message
  | expression e => e.message
  | evaluation e => e.message
  | load e => e.message
  | fault f => f.message

/-- Whether a failure is meant for a reader. -/
def forReader : Failure → Bool
  | fault _ => false
  | _ => true

/-- A source that is no expression. -/
def ofRead : ReadFailure → Failure
  | .malformed e => .expression e
  | .tooManyDigits count => .fault (.value (.digitsRead count))

/-- A signature that is no argument. -/
def ofArgument : ArgumentProblem → Failure
  | .expression e => ofRead e
  | .fault f => .fault f
  | .unwritten f => .fault f
  | p => .fault (.value (.custom p.message))

/-- A text that is no template. The error of a tag quotes the text of its argument problem; where there is none, the fault
of asking for it takes the place of the error. -/
def ofTemplate (e : TemplateError) : Failure :=
  match e.problem with
  | .arguments _ (.unwritten f) => .fault f
  | _ => .template e

end Failure

/-- The result of an operation on values as part of an evaluation. -/
def liftFault (r : Except Fault α) : Except Failure α :=
  r.mapError .fault

end TemplateEngine

/-
Faults: the ways in which an operation on values, or code of the embedding program, can fail. A fault
has a kind, which decides where it is caught, and a text.
-/
import TemplateEngine.Text.Encoding

namespace TemplateEngine

/-- Operands that do not fit the operation. Types are given by name. -/
inductive TypeProblem where
  | operands (op left right : String)
  | concatenation (left right : String)
  | repetition (other : String)
  | ordering (op left right : String)
  | substring (left : String)
  | bytesMembership (left : String)
  | membership (container : String)
  | unhashable (type : String)
  | subscript (type : String)
  | sequenceIndex (sequence index : String)
  | textIndex (index : String)
  | iteration (type : String)
  | noLength (type : String)
  | call (type : String)
  | tooManyArguments (name : String) (least most given : Nat)
  | missingArguments (name : String) (missing : List String)
  | rangeArguments (given : Nat)
  | notAllFormatted (kind : String)
  | notEnoughToFormat
  | numberFormat (c : Char) (type : String)
  | integerFormat (c : Char) (type : String)
  | floatFormat (type : String)
  | floatArgument (type : String)
  | bytesFormat (type : String)
  | wholeNumberSource (type : String)
  | pairSource (index : Nat)
  | replaceArgument (position : Nat) (type : String)
  | trimArgument
  | attributeName (type : String)
  | contextMapping (type : String)
  | outcome (family type : String)
  | deferredText (type : String)
  | bareNode
  | outsideSwitch (markup : String)
  | readOnlyBindings
  | configField (name : String)
  | joinedItem (type : String)
  | custom (text : String)
  deriving DecidableEq, Repr

/-- Operands of the right types with values that do not fit. -/
inductive ValueProblem where
  | wholeNumberText (shown : String)
  | digitsRead (count : Nat)
  | digitsWritten
  | noNumber
  | byteRange
  | rangeStep
  | pairLength (index length : Nat)
  | oddArguments
  | formatCharacter (shown c : Char) (index : Nat)
  | incompleteFormat
  | undecodable (problem : Text.DecodeProblem)
  | pathWithoutName (shown : String)
  | pathName (shown : String)
  | nullInPath
  | callableName (noun shown : String)
  | notCallable (noun name : String)
  | ownedNode (shown : String)
  | policy (shown : String)
  | suffix (shown : String)
  | configKeys (names : List String)
  | parallelChildren (shown : String)
  | noMapping (path : String)
  | missingContext (path : String)
  | custom (text : String)
  deriving DecidableEq, Repr

/-- Numbers beyond the range of the result. -/
inductive OverflowProblem where
  | float
  | quotient
  | infinity
  | index
  | size
  | number
  | precision
  /-- A code point or byte; the limit is written as in the message. -/
  | character (limit : String)
  | shownCharacter
  | repeatedText
  | repeatedBytes
  | custom (text : String)
  deriving DecidableEq, Repr

/-- The operations that fail on a zero divisor. -/
inductive Division where
  | quotient | floorQuotient | remainder
  deriving DecidableEq, Repr

/-- The remaining kinds of faults, known only by their text. -/
inductive ForeignKind where
  | key | index | attribute | runtime | system | missingFile | lookup | document
  | memory
  deriving DecidableEq, Repr

/-- A failed operation. -/
inductive Fault where
  | type (problem : TypeProblem)
  | value (problem : ValueProblem)
  | overflow (problem : OverflowProblem)
  | zeroDivision (operation : Division) (floating : Bool)
  | foreign (kind : ForeignKind) (text : String)
  deriving DecidableEq, Repr

/-- A noun with its plural `s` unless there is one thing. -/
def plural (n : Nat) (noun : String) : String :=
  if n == 1 then noun else noun ++ "s"

/-- Quoted names with commas, the last one after an `and`. -/
def series : List String → String
  | [] => ""
  | [a] => s!"and '{a}'"
  | a :: names => s!"'{a}', " ++ series names

/-- Quoted names as an enumeration: `'a'`, `'a' and 'b'`, `'a', 'b', and 'c'`. -/
def enumeration : List String → String
  | [a] => s!"'{a}'"
  | [a, b] => s!"'{a}' and '{b}'"
  | names => series names

/-- The text of a type problem. -/
def TypeProblem.message : TypeProblem → String
  | operands op left right => s!"unsupported operand type(s) for {op}: '{left}' and '{right}'"
  | concatenation left right =>
    if left == "bytes" then s!"can't concat {right} to bytes"
    else s!"can only concatenate {left} (not \"{right}\") to {left}"
  | repetition other => s!"can't multiply sequence by non-int of type '{other}'"
  | ordering op left right => s!"'{op}' not supported between instances of '{left}' and '{right}'"
  | substring left => s!"'in <string>' requires string as left operand, not {left}"
  | bytesMembership left => s!"a bytes-like object is required, not '{left}'"
  | membership container => s!"argument of type '{container}' is not iterable"
  | unhashable type => s!"unhashable type: '{type}'"
  | subscript type => s!"'{type}' object is not subscriptable"
  | sequenceIndex sequence index => s!"{sequence} indices must be integers or slices, not {index}"
  | textIndex index => s!"string indices must be integers, not '{index}'"
  | iteration type => s!"'{type}' object is not iterable"
  | noLength type => s!"object of type '{type}' has no len()"
  | call type => s!"'{type}' object is not callable"
  | tooManyArguments name least most given =>
    let were := if given == 1 then "was" else "were"
    let arguments := plural most "argument"
    if least == most then s!"{name}() takes {most} positional {arguments} but {given} {were} given"
    else s!"{name}() takes from {least} to {most} positional arguments but {given} {were} given"
  | missingArguments name missing =>
    let arguments := plural missing.length "argument"
    s!"{name}() missing {missing.length} required positional {arguments}: {enumeration missing}"
  | rangeArguments given =>
    if given == 0 then "range expected at least 1 argument, got 0"
    else s!"range expected at most 3 arguments, got {given}"
  | notAllFormatted kind => s!"not all arguments converted during {kind} formatting"
  | notEnoughToFormat => "not enough arguments for format string"
  | numberFormat c type => s!"%{c} format: a real number is required, not {type}"
  | integerFormat c type => s!"%{c} format: an integer is required, not {type}"
  | floatFormat type => s!"must be real number, not {type}"
  | floatArgument type => s!"float argument required, not {type}"
  | bytesFormat type =>
    s!"%b requires a bytes-like object, or an object that implements __bytes__, not '{type}'"
  | wholeNumberSource type =>
    s!"int() argument must be a string, a bytes-like object or a real number, not '{type}'"
  | pairSource index => s!"cannot convert dictionary update sequence element #{index} to a sequence"
  | replaceArgument position type => s!"replace() argument {position} must be str, not {type}"
  | trimArgument => "strip arg must be None or str"
  | attributeName type => s!"attribute name must be string, not '{type}'"
  | contextMapping type => s!"Context must be a mapping, got {type}"
  | outcome family type =>
    s!"Tag plugin '{family}' returned {type}, expected str, Resolved or Deferred"
  | deferredText type => s!"Deferred render must produce str, got {type}"
  | bareNode => "Unsupported template node: TemplateNode"
  | outsideSwitch markup => s!"{markup} must be placed inside a switch"
  | readOnlyBindings => "'mappingproxy' object does not support item assignment"
  | configField name => s!"EngineConfig.__init__() got an unexpected keyword argument '{name}'"
  | joinedItem type => s!"sequence item 0: expected str instance, {type} found"
  | custom text => text

/-- The text of a value problem. -/
def ValueProblem.message : ValueProblem → String
  | wholeNumberText shown => s!"invalid literal for int() with base 10: {shown}"
  | digitsRead count =>
    s!"Exceeds the limit (4300 digits) for integer string conversion: value has {count} digits; " ++
      "use sys.set_int_max_str_digits() to increase the limit"
  | digitsWritten =>
    "Exceeds the limit (4300 digits) for integer string conversion; " ++
      "use sys.set_int_max_str_digits() to increase the limit"
  | noNumber => "cannot convert float NaN to integer"
  | byteRange => "byte must be in range(0, 256)"
  | rangeStep => "range() arg 3 must not be zero"
  | pairLength index length =>
    s!"dictionary update sequence element #{index} has length {length}; 2 is required"
  | oddArguments => "dict() expects a mapping or an even number of arguments"
  | formatCharacter shown c index =>
    s!"unsupported format character '{shown}' (0x{String.ofList (Nat.toDigits 16 c.toNat)}) at index {index}"
  | incompleteFormat => "incomplete format"
  | undecodable problem => problem.message
  | pathWithoutName shown => s!"PurePosixPath({shown}) has an empty name"
  | pathName shown => s!"Invalid name {shown}"
  | nullInPath => "embedded null byte"
  | callableName noun shown => s!"Invalid {noun} name: {shown}"
  | notCallable noun name => s!"{noun.capitalize} '{name}' is not callable"
  | ownedNode shown => s!"Node {shown} already belongs to a tree"
  | policy shown => s!"Invalid undefined policy '{shown}' (expected one of: strict, lenient)"
  | suffix shown => s!"Template suffix must start with '.': {shown}"
  | configKeys names => "Unknown config keys: " ++ ", ".intercalate names
  | parallelChildren shown => s!"parallel_children must be a boolean, got {shown}"
  | noMapping path => s!"YAML must be a mapping: {path}"
  | missingContext path => s!"Context file not found: {path}"
  | custom text => text

/-- The text of an overflow. -/
def OverflowProblem.message : OverflowProblem → String
  | float => "int too large to convert to float"
  | quotient => "integer division result too large for a float"
  | infinity => "cannot convert float infinity to integer"
  | index => "cannot fit 'int' into an index-sized integer"
  | size => "Python int too large to convert to C ssize_t"
  | number => "Python int too large to convert to C int"
  | precision => "precision too large"
  | character limit => s!"%c arg not in range({limit})"
  | shownCharacter => "character argument not in range(0x110000)"
  | repeatedText => "repeated string is too long"
  | repeatedBytes => "repeated bytes are too long"
  | custom text => text

/-- The text of a fault. -/
def Fault.message : Fault → String
  | type problem => problem.message
  | value problem => problem.message
  | overflow problem => problem.message
  | zeroDivision .quotient false => "division by zero"
  | zeroDivision .floorQuotient false => "integer division or modulo by zero"
  | zeroDivision .remainder false => "integer modulo by zero"
  | zeroDivision .quotient true => "float division by zero"
  | zeroDivision .floorQuotient true => "float floor division by zero"
  | zeroDivision .remainder true => "float modulo"
  | foreign _ text => text

end TemplateEngine

/-
Calling. A host gives meaning to the callables of the embedding program, which may fail in any way.
-/
import TemplateEngine.Callable.Filter
import TemplateEngine.Callable.Function
import TemplateEngine.Callable.Signature
import TemplateEngine.Failure

namespace TemplateEngine

/-- The embedding program: what its callables do, which attributes values have beside their own, and how
much memory there is. A result of a call may be a new number that is none; inside of collections there
are only those of the arguments. -/
structure Host where
  call : String → List Value → Except Failure Value
  attributes : Attributes := fun _ _ => .missing
  /-- How many bytes the items of one sequence may take. -/
  memory : Nat := Nat.pow 2 63

/-- A host without callables. -/
def Host.empty : Host where
  call _ _ := .error (.fault (.type (.call "NoneType")))

/-- Calls a callable with arguments, whose number must fit. -/
def Callable.apply (h : Host) (c : Callable) (args : List Value) : Except Failure Value :=
  match c with
  | filter f => liftFault do
    f.signature.check c.name args.length
    f.apply h.attributes (args.headD .none) args.tail
  | function f => liftFault do
    f.signature.check c.name args.length
    f.apply h.memory args
  | host name => h.call name args

/-- Calls a value. -/
def Value.apply (h : Host) (v : Value) (args : List Value) : Except Failure Value :=
  match v with
  | callable c => c.apply h args
  | v => .error (.fault (.type (.call v.qualifiedTypeName)))

end TemplateEngine

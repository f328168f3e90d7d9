/-
The parameters of the built-in filters and functions.
-/
import TemplateEngine.Value.Printer

namespace TemplateEngine

/-- Parameters: those that must be given, how many more may be given, or that any number may. -/
structure Signature where
  required : List String
  optional : Nat := 0
  variadic : Bool := false

/-- The parameters of a filter; the first one is the value that is passed through. -/
def BuiltinFilter.signature : BuiltinFilter → Signature
  | .default => ⟨["value"], 2, false⟩
  | .trim => ⟨["value"], 1, false⟩
  | .join => ⟨["value"], 2, false⟩
  | .replace => ⟨["value", "old", "new"], 1, false⟩
  | .int => ⟨["value"], 1, false⟩
  | .float => ⟨["value"], 1, false⟩
  | .sort => ⟨["value"], 2, false⟩
  | _ => ⟨["value"], 0, false⟩

/-- The parameters of a function. -/
def BuiltinFunction.signature : BuiltinFunction → Signature
  | .range => ⟨[], 0, true⟩
  | .len => ⟨["value"], 0, false⟩
  | .dict => ⟨[], 0, true⟩

/-- Fails where too many or too few arguments are given to the callable of a name. -/
def Signature.check (s : Signature) (name : String) (given : Nat) : Except Fault Unit :=
  let least := s.required.length
  let most := least + s.optional
  if s.variadic then .ok ()
  else if most < given then .error (.type (.tooManyArguments name least most given))
  else if given < least then .error (.type (.missingArguments name (s.required.drop given)))
  else .ok ()

end TemplateEngine

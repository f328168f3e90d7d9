/-
Environments: all that a render depends on besides the template and its context. The embedding
program adds tags, filters and functions of its own; one of an old name takes its place.
-/
import TemplateEngine.Callable.Builtin
import TemplateEngine.Loader
import TemplateEngine.Tag.Apply
import TemplateEngine.Tag.For
import TemplateEngine.Tag.If
import TemplateEngine.Tag.Include
import TemplateEngine.Tag.Registry
import TemplateEngine.Tag.Switch
import TemplateEngine.Tag.With

namespace TemplateEngine

/-- The built-in families of tags, in the order of their registration. -/
def builtinTags : List TagPlugin :=
  [IfTag.plugin, SwitchTag.plugin, ForTag.plugin, WithTag.plugin, ApplyTag.plugin, IncludeTag.plugin]

/-- The registry of the built-in tags. -/
def builtinRegistry : TagRegistry :=
  ({} : TagRegistry).addAll builtinTags

/-- What templates are rendered with. -/
structure Environment where
  loader : Loader
  undefined : UndefinedPolicy := .strict
  host : Host := Host.empty
  registry : TagRegistry := builtinRegistry
  filters : Bindings := builtinFilters
  functions : Bindings := builtinFunctions
  /-- How many includes may be open at once. It stands for the recursion limit of the interpreter, which
  ends includes that go round; the number itself is of no account. -/
  includeDepth : Nat := 400

namespace Environment

/-! ## Extension -/

/-- Registers a family of tags. -/
def addTag (env : Environment) (p : TagPlugin) : Except RegistryProblem (Environment × List RouteWarning) := do
  let (registry, warnings) ← env.registry.add p
  return ({ env with registry := registry }, warnings)

/-- The name of a new filter or function: an identifier, for something that can be called. -/
def checkCallable (noun : String) (name v : Value) : Except Fault String := do
  let invalid : Except Fault String := do throw (.value (.callableName noun (← name.quotedForm)))
  match name with
  | .str n =>
    if Text.isIdentifier n then
      match v with
      | .callable _ => return n
      | _ => throw (.value (.notCallable noun n))
    else invalid
  | _ => invalid

/-- Adds a filter. -/
def addFilter (env : Environment) (name v : Value) : Except Fault Environment := do
  let n ← checkCallable "filter" name v
  return { env with filters := env.filters.insert n v }

/-- Adds a function. -/
def addFunction (env : Environment) (name v : Value) : Except Fault Environment := do
  let n ← checkCallable "function" name v
  return { env with functions := env.functions.insert n v }

/-! ## Scopes -/

/-- The outermost scope: the functions, and the filters under their reserved name. -/
def globalScope (env : Environment) : Scope :=
  { bindings := env.functions.insert Scope.filtersName env.filters.toValue }

/-- The scope of a render: a context, which must be a mapping if there is one, inside of the
outermost scope. -/
def makeScope (env : Environment) (context : Value) : Except Fault Scope :=
  let around (b : Bindings) : Scope := { bindings := b, outer := env.globalScope.chain }
  match context with
  | .none => .ok (around [])
  | .dict entries => .ok (around (Bindings.ofEntries entries))
  | v => .error (.type (.contextMapping v.typeName))

/-- The value of an expression. -/
def evaluate (env : Environment) (e : Expr) (s : Scope) : Except Failure Value :=
  (⟨env.host, env.undefined⟩ : Evaluator).eval s e

end Environment

end TemplateEngine

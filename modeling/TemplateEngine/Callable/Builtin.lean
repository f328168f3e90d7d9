/-
The names under which templates find the built-in filters and functions.
-/
import TemplateEngine.Scope

namespace TemplateEngine

/-- The built-in filters with their names. -/
def namedFilters : List (String × BuiltinFilter) :=
  [("default", .default), ("upper", .upper), ("lower", .lower), ("capitalize", .capitalize),
    ("title", .title), ("trim", .trim), ("length", .length), ("join", .join), ("first", .first),
    ("last", .last), ("replace", .replace), ("escape", .escape), ("int", .int), ("float", .float),
    ("string", .string), ("reverse", .reverse), ("sort", .sort)]

/-- The built-in functions with their names. -/
def namedFunctions : List (String × BuiltinFunction) :=
  [("range", .range), ("len", .len), ("dict", .dict)]

/-- The built-in filters as bindings. -/
def builtinFilters : Bindings :=
  namedFilters.map fun f => (f.1, .callable (.filter f.2))

/-- The built-in functions as bindings. -/
def builtinFunctions : Bindings :=
  namedFunctions.map fun f => (f.1, .callable (.function f.2))

end TemplateEngine

/-
The registry of tags. Each plugin gives routes from names to roles: its opening names, its closing
names, and its inside names, in this order. A later route of a name takes the place of an earlier
one, with a warning; a plugin that is refused leaves the registry as it is.
-/
import TemplateEngine.Tag.Plugin
import TemplateEngine.Template.Error

namespace TemplateEngine

/-- Where the name of a tag leads. -/
structure TagRoute where
  plugin : TagPlugin
  role : TagRole

/-- Plugins in the order of their registration, and the routes of names. -/
structure TagRegistry where
  plugins : List TagPlugin := []
  routes : List (String × TagRoute) := []

/-- Why a plugin is refused. -/
inductive RegistryProblem where
  | registered (family : String)
  | nameless (family : String)
  deriving DecidableEq, Repr

/-- The text of the problem. -/
def RegistryProblem.message : RegistryProblem → String
  | registered family => s!"Tag plugin '{family}' already registered"
  | nameless family => s!"Tag plugin '{family}' declares no tag names"

/-- A route that took the place of another one. -/
structure RouteWarning where
  name : String
  family : String
  replaced : String
  deriving DecidableEq, Repr

/-- The text of the warning. -/
def RouteWarning.message (w : RouteWarning) : String :=
  s!"Tag '{w.name}' from plugin '{w.family}' overwrites existing route of plugin '{w.replaced}'"

namespace TagRegistry

/-- The route of a name. -/
def route? (r : TagRegistry) (name : String) : Option TagRoute :=
  (r.routes.find? (·.1 == name)).map (·.2)

/-- The names that a plugin declares, with their roles. -/
def declarations (p : TagPlugin) : List (String × TagRole) :=
  p.names.map (·, .opening) ++ p.closingNames.map (·, .closing) ++ p.insideNames.map (·, .inside)

/-- Sets the route of a name. -/
def setRoute (name : String) (route : TagRoute) : List (String × TagRoute) → List (String × TagRoute)
  | [] => [(name, route)]
  | (n, old) :: routes => if n == name then (n, route) :: routes else (n, old) :: setRoute name route routes

/-- Adds the routes of some declarations of a plugin. -/
def addRoutes (p : TagPlugin) (r : TagRegistry) : List (String × TagRole) → TagRegistry × List RouteWarning
  | [] => (r, [])
  | (name, role) :: more =>
    let warning := (r.route? name).map fun old => ⟨name, p.family, old.plugin.family⟩
    let (r, warnings) := addRoutes p { r with routes := setRoute name ⟨p, role⟩ r.routes } more
    (r, warning.toList ++ warnings)

/-- Registers a plugin. -/
def add (r : TagRegistry) (p : TagPlugin) : Except RegistryProblem (TagRegistry × List RouteWarning) :=
  if r.plugins.any (·.family == p.family) then .error (.registered p.family)
  else if p.names.isEmpty then .error (.nameless p.family)
  else .ok (addRoutes p { r with plugins := r.plugins ++ [p] } (declarations p))

/-- Registers plugins and leaves out those that are refused. -/
def addAll (r : TagRegistry) (ps : List TagPlugin) : TagRegistry :=
  ps.foldl (fun r p => match r.add p with
    | .ok (r, _) => r
    | .error _ => r) r

/-- The plugin of a family. -/
def plugin? (r : TagRegistry) (family : String) : Option TagPlugin :=
  r.plugins.find? (·.family == family)

/-- The routes by name. -/
def sortedRoutes (r : TagRegistry) : List (String × TagRoute) :=
  r.routes.mergeSort fun a b => decide (a.1 ≤ b.1)

/-- The routed names in alphabetical order. -/
def names (r : TagRegistry) : List String :=
  r.sortedRoutes.map (·.1)

/-- The route of a tag that stands in a template. -/
def route (r : TagRegistry) (name template : String) (line : Option Nat) : Except TemplateError TagRoute :=
  match r.route? name with
  | some route => .ok route
  | none => .error ⟨template, line, .unknownTag name⟩

end TagRegistry

end TemplateEngine

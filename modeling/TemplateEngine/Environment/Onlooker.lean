/-
Onlookers. The attributes of a function lead to the modules of the program, to the frames of the calls
that are being made, and so to the render in which the function is used: to its tree and its scope.
An embedding program of which such attributes can be read has another host for each render.
-/
import TemplateEngine.Environment.Render
import TemplateEngine.Template.Tree

namespace TemplateEngine

/-- An embedding program whose callables and attributes may look at a render: a host for the text, or the
id, of a template and for a context. -/
abbrev Onlooker := String → Value → Host

/-- What is seen of a render in the frames of the interpreter. -/
structure Sight where
  /-- How many nodes the tree has. -/
  nodes : Nat
  context : Bindings

namespace Sight

/-- The variables of a frame. All frames of a render are taken for one. -/
def locals (sight : Sight) : Value :=
  .dict [(.str "self", .record [
    ("tree", .list (List.replicate sight.nodes .none)),
    ("scope", .record [("resolve", .callable (.host "resolve"))])])]

/-- Whether a name is bound, and to what. -/
def resolve (sight : Sight) (name : String) : Value :=
  match sight.context.value? name with
  | some v => .tuple [.bool true, v]
  | none => .tuple [.bool false, .none]

/-- The result of a callable to which the attributes of functions lead. -/
def call? (sight : Sight) (name : String) (args : List Value) : Option Value :=
  match name, args with
  | "__import__", [_] => some (.record [("_getframe", .callable (.host "_getframe"))])
  | "_getframe", [_] => some (.record [("f_locals", sight.locals)])
  | "resolve", [.str name] => some (sight.resolve name)
  | _, _ => none

/-- The variables of the module of a function. -/
def globals : Value :=
  .dict [(.str "__builtins__", .dict [(.str "__import__", .callable (.host "__import__"))])]

end Sight

/-- A host in which the attributes of functions lead to the frames of a render. -/
def Host.showing (h : Host) (sight : Sight) : Host where
  call name args := match sight.call? name args with
    | some v => .ok v
    | none => h.call name args
  attributes v name := match v, name with
    | .callable (.function _), "__globals__" => .found Sight.globals
    | v, name => h.attributes v name
  memory := h.memory

namespace Environment

/-- The host of an environment, in which the render of a text can be looked at. -/
def onlooker (env : Environment) : Onlooker := fun source context =>
  env.host.showing {
    nodes := match env.parse source "" with
      | .ok t => (Tree.ofTemplate t).size
      | .error _ => 0
    context := match context with
      | .dict entries => Bindings.ofEntries entries
      | _ => [] }

/-- Renders a template text before an onlooker. -/
def renderStringBefore (env : Environment) (look : Onlooker) (source : String) (context : Value)
    (name : String := "(string)") : Render String :=
  { env with host := look source context }.renderString source context name

/-- Renders the template of an id before an onlooker. -/
def renderBefore (env : Environment) (look : Onlooker) (id : String) (context : Value) : Render String :=
  { env with host := look id context }.render id context

end Environment

end TemplateEngine

/-
Rendering in an environment. A template is read from a text or loaded by its id; what it includes is
loaded the same way, with the name of the including template as its base, and rendered in a scope
inside of the including one. The blocks of a template are rendered in order, or together by a scheduler.
-/
import TemplateEngine.Environment.Basic
import TemplateEngine.Template.Outline
import TemplateEngine.Template.Reader
import TemplateEngine.Template.Render

namespace TemplateEngine

namespace Environment

/-- Reads a template text. -/
def parse (env : Environment) (source name : String) : Except Failure Template :=
  (Template.read env.registry source name).mapError .ofTemplate

/-- Reads what the loader gave for an id. -/
def readLoaded (env : Environment) (id : String) : Except Failure Value → Except Failure Template
  | .ok (.str text) => env.parse text id
  | .ok v => .error (.load (.notText id v.typeName))
  | .error (.fault f) => .error (.load (.failed id f))
  | .error failure => .error failure

/-- Loads a template for the template `base`. -/
def load (env : Environment) (id : String) (base : Option String) : Render Template := do
  modify (· ++ [⟨id, base⟩])
  Render.ofResult (env.readLoaded id (env.loader.load id base))

/-- What plugins may ask of the environment; `depth` more includes may be open. -/
def services (env : Environment) : Nat → Services
  | 0 => {
    evaluate := env.evaluate
    renderInclude := fun _ _ _ => throw (.fault (.foreign .runtime "maximum recursion depth exceeded")) }
  | depth + 1 => {
    evaluate := env.evaluate
    renderInclude := fun id s base => do
      let t ← env.load id (some base)
      renderBlocks (env.services depth) t.name .all t.blocks (s.child []) .absent }

theorem evaluate_services (env : Environment) (depth : Nat) : (env.services depth).evaluate = env.evaluate := by
  cases depth <;> rfl

/-- The text of a template. -/
def renderTemplate (env : Environment) (t : Template) (s : Scope) : Render String :=
  renderBlocks (env.services env.includeDepth) t.name .all t.blocks s .absent

/-- Renders a template text. The text is read before the context is looked at. -/
def renderString (env : Environment) (source : String) (context : Value) (name : String := "(string)") :
    Render String := do
  let t ← Render.ofResult (env.parse source name)
  let s ← Render.ofResult (liftFault (env.makeScope context))
  env.renderTemplate t s

/-- Renders the template of an id. The template is loaded before the context is looked at. -/
def render (env : Environment) (id : String) (context : Value) : Render String := do
  let t ← env.load id none
  let s ← Render.ofResult (liftFault (env.makeScope context))
  env.renderTemplate t s

/-- Renders a node of a tree for a selector; the root hands the selector to its children. -/
def renderNode (env : Environment) (t : Tree) (h : Nat) (context : Value) (selector : Selector) :
    Render String := do
  let s ← Render.ofResult (liftFault (env.makeScope context))
  let services := env.services env.includeDepth
  match t.content? h with
  | some .root => renderBlocks services t.name .all t.blocks s selector
  | some _ => renderBlock services t.name (t.block h) s selector
  | none => throw (.fault (.foreign .index "list index out of range"))

/-! ## Rendering together -/

/-- What plugins may ask of the environment where blocks are rendered together. -/
def servicesTogether (env : Environment) (gather : Gather) : Nat → Services
  | 0 => env.services 0
  | depth + 1 => {
    evaluate := env.evaluate
    renderInclude := fun id s base => do
      let t ← env.load id (some base)
      gather (rendersOf gather (env.servicesTogether gather depth) t.name .all t.blocks (s.child []) .absent) }

/-- The text of a template whose blocks are rendered together. -/
def renderTemplateTogether (env : Environment) (gather : Gather) (t : Template) (s : Scope) : Render String :=
  gather (rendersOf gather (env.servicesTogether gather env.includeDepth) t.name .all t.blocks s .absent)

/-- Renders a template text, its blocks together. -/
def renderStringTogether (env : Environment) (gather : Gather) (source : String) (context : Value)
    (name : String := "(string)") : Render String := do
  let t ← Render.ofResult (env.parse source name)
  let s ← Render.ofResult (liftFault (env.makeScope context))
  env.renderTemplateTogether gather t s

/-- Renders the template of an id, its blocks together. -/
def renderTogether (env : Environment) (gather : Gather) (id : String) (context : Value) : Render String := do
  let t ← env.load id none
  let s ← Render.ofResult (liftFault (env.makeScope context))
  env.renderTemplateTogether gather t s

end Environment

end TemplateEngine

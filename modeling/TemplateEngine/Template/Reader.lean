/-
Reading templates. The tokens are taken one after the other: a stack of contexts tells what they
belong to, and a stack of open tags holds the blocks that have been read. An opening or inside tag is
opened, and a closing tag closes the inside tags of its family and the opening one below them.
-/
import TemplateEngine.Template.Block

namespace TemplateEngine.Template

/-- An open tag, and the blocks before it, last one first. -/
structure OpenTag where
  plugin : TagPlugin
  tag : Tag
  before : List Block

/-- What has been read: the contexts, the content of an open output or tag, the open tags, innermost
first, and the blocks of the innermost one, last one first. -/
structure Reader where
  contexts : ContextStack := {}
  payload : Option Token := none
  openTags : List OpenTag := []
  blocks : List Block := []

namespace Reader

/-- Adds a block. -/
def add (r : Reader) (b : Block) : Reader :=
  { r with blocks := b :: r.blocks }

/-- Opens a tag. -/
def enter (r : Reader) (p : TagPlugin) (t : Tag) : Reader :=
  { r with openTags := ⟨p, t, r.blocks⟩ :: r.openTags, blocks := [] }

/-- Closes the tags of a family up to its opening tag; other tags must not be in between. -/
def closeFamily? (family : String) : List OpenTag → List Block → Option (List OpenTag × List Block)
  | [], _ => none
  | o :: rest, blocks =>
    if o.plugin.family == family then
      let closed := Block.tag o.plugin o.tag blocks.reverse :: o.before
      if o.tag.role = .opening then some (rest, closed) else closeFamily? family rest closed
    else none

/-- The markup of the innermost open tag. -/
def place (r : Reader) : Option TagMarkup :=
  r.openTags.head?.map (·.tag.markup)

/-- Takes an output in. -/
def addOutput (name : String) (closing : Token) (r : Reader) : Except TemplateError Reader :=
  match r.payload with
  | some t =>
    if Text.blank t.value then .error ⟨name, some closing.line, .emptyOutput⟩
    else .ok ({ r with payload := none }.add (.output (Text.trim t.value) t.line))
  | none => .error ⟨name, some closing.line, .emptyOutput⟩

/-- Makes a tag, whose arguments are read unless it closes. -/
def makeTag (name : String) (line : Nat) (route : TagRoute) (m : TagMarkup) : Except TemplateError Tag :=
  let tag (args : TagArgs) : Tag := ⟨m.name, route.role, m.signature, args, line, name⟩
  if route.role = .closing then .ok (tag .none)
  else match route.plugin.readArgs m.name route.role m.signature with
    | .ok args => .ok (tag args)
    | .error problem => .error ⟨name, some line, .arguments m.name problem⟩

/-- Puts a tag into its place, by its role. -/
def placeTag (name : String) (route : TagRoute) (t : Tag) (r : Reader) : Except TemplateError Reader :=
  let fail (problem : TemplateProblem) : Except TemplateError Reader :=
    .error ⟨name, some t.line, problem⟩
  match route.role with
  | .opening =>
    if route.plugin.singular then .ok (r.add (.tag route.plugin t []))
    else .ok (r.enter route.plugin t)
  | .closing =>
    match closeFamily? route.plugin.family r.openTags r.blocks with
    | some (rest, blocks) => .ok { r with openTags := rest, blocks := blocks }
    | none => fail (.cannotClose r.place t.markup)
  | .inside =>
    match r.openTags with
    | [] => fail (.cannotInclude t.markup none)
    | o :: _ =>
      if o.plugin.family != route.plugin.family then fail (.cannotInclude t.markup (some o.tag.markup))
      else if o.tag.role = .inside ∧ o.tag.name ∈ o.plugin.finalNames then
        fail (.afterFinal t.markup o.tag.markup (o.plugin.closingNames.headD ""))
      else .ok (r.enter route.plugin t)

/-- Takes a tag in. -/
def addTag (registry : TagRegistry) (name : String) (closing : Token) (r : Reader) :
    Except TemplateError Reader := do
  let line := (r.payload.map (·.line)).getD closing.line
  match r.payload.bind fun t => TagMarkup.ofPayload? t.value with
  | none => .error ⟨name, some line, .missingTagName⟩
  | some m =>
    let route ← registry.route m.name name (some line)
    let t ← makeTag name line route m
    placeTag name route t { r with payload := none }

/-- Takes a token in. -/
def step (registry : TagRegistry) (name : String) (r : Reader) (t : Token) : Except TemplateError Reader :=
  match r.contexts.feed t with
  | (.error problem, contexts) => .error ⟨name, some contexts.line, .context problem⟩
  | (.ok owner, contexts) =>
    let r := { r with contexts := contexts }
    match t.kind, owner with
    | .text, some .content => .ok (r.add (.text t.value))
    | .text, some .expression => .ok { r with payload := some t }
    | .text, some .tag => .ok { r with payload := some t }
    | .delimiter _, some .expression => r.addOutput name t
    | .delimiter _, some .tag => r.addTag registry name t
    | _, _ => .ok r

/-- What has been read, if nothing is left open. -/
def finish (name : String) (r : Reader) : Except TemplateError (List Block) :=
  match r.contexts.finish with
  | .error problem => .error ⟨name, some r.contexts.line, .context problem⟩
  | .ok () =>
    match r.openTags with
    | o :: _ => .error ⟨name, some o.tag.line, .unclosed o.tag.markup⟩
    | [] => .ok r.blocks.reverse

end Reader

end TemplateEngine.Template

namespace TemplateEngine

open TemplateEngine.Template

/-- Reads a template text. -/
def Template.read (registry : TagRegistry) (text name : String) : Except TemplateError Template := do
  let r ← (tokens text).foldlM (Reader.step registry name) {}
  return ⟨name, ← r.finish name⟩

end TemplateEngine

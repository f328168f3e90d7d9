/-
Reading templates into their flat form. A tree takes the place of the open tags, and a cursor says below
which node the next one is added: an opening or inside tag moves it to the node of the tag, and a closing
tag to the parent of the opening tag of its family. Each lookup may find nothing; it is a breakdown, and no
error of the text.
-/
import TemplateEngine.Template.Reader
import TemplateEngine.Template.Tree

namespace TemplateEngine.Template

/-- A lookup that finds nothing. -/
inductive Breakdown where
  /-- No context is open. -/
  | noContext
  | noNode (h : Nat)
  | noParent (h : Nat)
  | notAdded (problem : Tree.AppendProblem)
  /-- A family without closing names. -/
  | noClosingName (family : String)
  /-- The node that is left open is no tag. -/
  | noTag (h : Nat)
  deriving DecidableEq, Repr

/-- Why a builder stops: an error of the text, or a breakdown. -/
inductive BuildProblem where
  | error (e : TemplateError)
  | breakdown (b : Breakdown)
  deriving DecidableEq, Repr

/-- What has been read: the contexts, the content of an open output or tag, the nodes, and the number of the
one below which the next node is added. -/
structure Builder where
  contexts : ContextStack := {}
  payload : Option Token := none
  tree : Tree
  cursor : Nat := 0

namespace Builder

/-- What the node of a number holds. -/
def content (t : Tree) (h : Nat) : Except BuildProblem NodeContent :=
  match t.content? h with
  | some c => .ok c
  | none => .error (.breakdown (.noNode h))

/-- The parent of a node. -/
def parent (t : Tree) (h : Nat) : Except BuildProblem Nat :=
  match t.parent? h with
  | some above => .ok above
  | none => .error (.breakdown (.noParent h))

/-- Adds a node below the cursor. -/
def add (b : Builder) (c : NodeContent) : Except BuildProblem Builder :=
  match b.tree.append b.cursor (.fresh c) with
  | .ok t => .ok { b with tree := t }
  | .error problem => .error (.breakdown (.notAdded problem))

/-- Adds a node below the cursor and moves the cursor to it. -/
def enter (b : Builder) (c : NodeContent) : Except BuildProblem Builder := do
  return { ← b.add c with cursor := b.tree.size }

/-- The number of the opening tag of a family to which the node of a number belongs, if it belongs to one. -/
def familyStart? (family : String) (t : Tree) (h : Nat) : Except BuildProblem (Option Nat) :=
  match t.content? h with
  | none => .error (.breakdown (.noNode h))
  | some (.tag p tag) =>
    if p.family == family then
      if tag.role = .opening then .ok (some h)
      else match t.parent? h with
        | none => .error (.breakdown (.noParent h))
        | some above =>
          if _ : above < h then familyStart? family t above else .error (.breakdown (.noParent h))
    else .ok none
  | some _ => .ok none
  termination_by h

/-- The tag at the cursor. -/
def place (b : Builder) : Except BuildProblem (Option TagMarkup) := do
  match ← content b.tree b.cursor with
  | .tag _ t => return some t.markup
  | _ => return none

/-- Takes an output in. -/
def addOutput (name : String) (closing : Token) (b : Builder) : Except BuildProblem Builder :=
  match b.payload with
  | some t =>
    if Text.blank t.value then .error (.error ⟨name, some closing.line, .emptyOutput⟩)
    else { b with payload := none }.add (.output (Text.trim t.value) t.line)
  | none => .error (.error ⟨name, some closing.line, .emptyOutput⟩)

/-- Puts a tag into its place, by its role. -/
def placeTag (name : String) (route : TagRoute) (t : Tag) (b : Builder) : Except BuildProblem Builder :=
  let fail (problem : TemplateProblem) : Except BuildProblem Builder :=
    .error (.error ⟨name, some t.line, problem⟩)
  match route.role with
  | .opening =>
    if route.plugin.singular then b.add (.tag route.plugin t) else b.enter (.tag route.plugin t)
  | .closing => do
    match ← familyStart? route.plugin.family b.tree b.cursor with
    | some start => return { b with cursor := ← parent b.tree start }
    | none => fail (.cannotClose (← b.place) t.markup)
  | .inside => do
    match ← content b.tree b.cursor with
    | .tag p current =>
      if p.family != route.plugin.family then fail (.cannotInclude t.markup (some current.markup))
      else if current.role = .inside ∧ current.name ∈ p.finalNames then
        match p.closingNames with
        | [] => .error (.breakdown (.noClosingName p.family))
        | expected :: _ => fail (.afterFinal t.markup current.markup expected)
      else b.enter (.tag route.plugin t)
    | _ => fail (.cannotInclude t.markup none)

/-- Takes a tag in. -/
def addTag (registry : TagRegistry) (name : String) (closing : Token) (b : Builder) :
    Except BuildProblem Builder := do
  let line := (b.payload.map (·.line)).getD closing.line
  match b.payload.bind fun t => TagMarkup.ofPayload? t.value with
  | none => .error (.error ⟨name, some line, .missingTagName⟩)
  | some m =>
    let route ← (registry.route m.name name (some line)).mapError .error
    let t ← (Reader.makeTag name line route m).mapError .error
    placeTag name route t { b with payload := none }

/-- Takes a token in. -/
def step (registry : TagRegistry) (name : String) (b : Builder) (t : Token) : Except BuildProblem Builder :=
  if b.contexts.contexts = [] then .error (.breakdown .noContext)
  else match b.contexts.feed t with
    | (.error problem, contexts) => .error (.error ⟨name, some contexts.line, .context problem⟩)
    | (.ok owner, contexts) =>
      let b := { b with contexts := contexts }
      match t.kind, owner with
      | .text, some .content => b.add (.text t.value)
      | .text, some .expression => .ok { b with payload := some t }
      | .text, some .tag => .ok { b with payload := some t }
      | .delimiter _, some .expression => b.addOutput name t
      | .delimiter _, some .tag => b.addTag registry name t
      | _, _ => .ok b

/-- The tree, if nothing is left open. -/
def finish (name : String) (b : Builder) : Except BuildProblem Tree :=
  if b.contexts.contexts = [] then .error (.breakdown .noContext)
  else match b.contexts.finish with
    | .error problem => .error (.error ⟨name, some b.contexts.line, .context problem⟩)
    | .ok () => do
      if b.cursor = 0 then return b.tree
      else match ← content b.tree b.cursor with
        | .tag _ t => .error (.error ⟨name, some t.line, .unclosed t.markup⟩)
        | _ => .error (.breakdown (.noTag b.cursor))

end Builder

end TemplateEngine.Template

namespace TemplateEngine

open TemplateEngine.Template

/-- Reads a template text into a tree. -/
def Tree.read (registry : TagRegistry) (text name : String) : Except BuildProblem Tree := do
  let b ← (tokens text).foldlM (Builder.step registry name) { tree := ⟨name, []⟩ }
  b.finish name

end TemplateEngine

/-
Rendering. Blocks are rendered in order and their texts joined; the first failure ends the render.
Errors of an output get its place in front; a fault in an output or a tag becomes an error with the
place and the source. Where the settings ask for it, the children of a node are rendered together
instead: all of them are started, and a scheduler puts together what becomes of them.
-/
import TemplateEngine.Template.Block

namespace TemplateEngine

/-- The text of an output. -/
def outputText (services : Services) (name source : String) (line : Nat) (s : Scope) : Render String :=
  let place : Location := ⟨name, line⟩
  let text : Except Failure String := do
    let e ← (Expr.read source).mapError Failure.ofRead
    let v ← services.evaluate e s
    liftFault v.outputText
  Render.ofResult <| match text with
    | .ok text => .ok text
    | .error (.expression e) => .error (.evaluation (.outputSource place source e))
    | .error (.evaluation e) => .error (.evaluation (.located place e))
    | .error (.fault f) => .error (.evaluation (.outputFault place source f))
    | .error failure => .error failure

/-- The text of a tag's outcome, for the selector of its parent. -/
def Outcome.resolve (family : String) (selector : Selector) : Outcome → Render String
  | .text s => return s
  | .choice pick => do
    match ← pick selector with
    | .text s => return s
    | .other v => throw (.fault (.type (.deferredText v.typeName)))
  | .other v => throw (.fault (.type (.outcome family v.typeName)))

/-- Describes the faults of a tag. -/
def describeTag (name : String) (t : Tag) (r : Render String) : Render String :=
  tryCatch r fun
    | .fault f => throw (.evaluation (.tagFault ⟨name, t.line⟩ t.markup f))
    | failure => throw failure

mutual

/-- The text of a block of the template of a name. -/
def renderBlock (services : Services) (name : String) : Block → Scope → Selector → Render String
  | .text s, _, _ => return s
  | .output source line, s, _ => outputText services name source line s
  | .tag plugin t children, s, selector =>
    describeTag name t do
      let outcome ← plugin.render t s services fun s selector choice =>
        renderBlocks services name choice children s selector
      outcome.resolve plugin.family selector
  | .bare, _, _ => throw (.fault (.type .bareNode))

/-- The texts of some blocks, joined. -/
def renderBlocks (services : Services) (name : String) (choice : ChildChoice) :
    List Block → Scope → Selector → Render String
  | [], _, _ => return ""
  | b :: bs, s, selector => do
    if choice = .insideTags ∧ !b.isInside then renderBlocks services name choice bs s selector
    else
      let text ← renderBlock services name b s selector
      let rest ← renderBlocks services name choice bs s selector
      return text ++ rest

end

/-! ## Rendering together -/

/-- Puts together some renders that are started at once. -/
abbrev Gather := List (Render String) → Render String

/-- One render after the other. -/
def Gather.inOrder : List (Render String) → Render String
  | [] => return ""
  | r :: rs => do
    let text ← r
    let rest ← inOrder rs
    return text ++ rest

mutual

/-- The text of a block, the children of which are rendered together. -/
def renderBlockTogether (gather : Gather) (services : Services) (name : String) :
    Block → Scope → Selector → Render String
  | .text s, _, _ => return s
  | .output source line, s, _ => outputText services name source line s
  | .tag plugin t children, s, selector =>
    describeTag name t do
      let outcome ← plugin.render t s services fun s selector choice =>
        gather (rendersOf gather services name choice children s selector)
      outcome.resolve plugin.family selector
  | .bare, _, _ => throw (.fault (.type .bareNode))

/-- The renders of some blocks. -/
def rendersOf (gather : Gather) (services : Services) (name : String) (choice : ChildChoice) :
    List Block → Scope → Selector → List (Render String)
  | [], _, _ => []
  | b :: bs, s, selector =>
    let rest := rendersOf gather services name choice bs s selector
    if choice = .insideTags ∧ !b.isInside then rest
    else renderBlockTogether gather services name b s selector :: rest

end

end TemplateEngine

/-
Tag plugins. A plugin is a family of tags: its names, how it reads the signature of a tag, and how it
renders one. A tag gives its text at once, or as a choice that waits for a selector: its parent tells
all of its children by the selector which branch has been taken.
-/
import TemplateEngine.Eval
import TemplateEngine.Expr.Parser

namespace TemplateEngine

/-- The part that a tag plays in its family. -/
inductive TagRole where
  | opening | inside | closing
  deriving DecidableEq, Repr

/-- The name of a role in listings. -/
def TagRole.name : TagRole → String
  | opening => "start"
  | inside => "inside"
  | closing => "end"

/-- The arguments that a plugin reads from a signature. -/
inductive TagArgs where
  | none
  | expr (e : Expr)
  | loop (target : String) (second : Option String) (iterable : Expr)
  | binding (target : String) (value : Expr)
  | value (v : Value)

/-- A tag of a template, apart from its plugin and its children. -/
structure Tag where
  name : String
  role : TagRole
  signature : String
  args : TagArgs
  line : Nat
  /-- The name of the template that the tag stands in. -/
  template : String

/-- The markup of a tag. -/
def Tag.markup (t : Tag) : TagMarkup :=
  ⟨t.name, t.signature⟩

/-- What a node tells its children about the branch to render. -/
inductive Selector where
  | absent
  /-- A branch was taken, and all others are silent. -/
  | taken
  /-- No branch was taken yet. -/
  | pending
  /-- The value that a branch has to match. -/
  | subject (v : Value)
  /-- A word of the plugin's own. -/
  | word (s : String)

/-! ## Rendering -/

/-- A request to the loader: a template, and the template that includes it. -/
structure LoaderCall where
  id : String
  base : Option String
  deriving DecidableEq, Repr

/-- Rendering may fail and asks the loader for templates; the requests are kept, in order, also if
it fails. -/
abbrev Render := ExceptT Failure (StateM (List LoaderCall))

/-- A part of a render without requests. -/
def Render.ofResult (r : Except Failure α) : Render α :=
  ExceptT.mk (pure r)

/-- Runs a render: its result and its requests. -/
def Render.run' (r : Render α) : Except Failure α × List LoaderCall :=
  (ExceptT.run r).run []

/-- What a tag or a choice produces: text, or wrongly some other value. -/
inductive Produced where
  | text (s : String)
  | other (v : Value)

/-- The outcome of rendering a tag. One that is marked as resolved is the text that it holds. -/
inductive Outcome where
  | text (s : String)
  | choice (pick : Selector → Render Produced)
  | other (v : Value)

/-- Which children of a node are rendered. -/
inductive ChildChoice where
  | all
  | insideTags
  deriving DecidableEq, Repr

/-- Renders the children of a node, one after the other. -/
abbrev ChildrenRenderer := Scope → Selector → ChildChoice → Render String

/-- What a plugin may ask of the environment. -/
structure Services where
  /-- The value of an expression. A value that is compared with it later is held in the scope. -/
  evaluate : Expr → Scope → Except Failure Value
  /-- Renders the template of an id, asked for by the template `base`, inside of a scope. -/
  renderInclude : String → Scope → String → Render String

/-- A family of tags. A tag uses what stands below it only by rendering it: all of its children, or the
inside tags among them. -/
structure TagPlugin where
  /-- The word in front of the family in listings. -/
  label : String
  family : String
  names : List String
  insideNames : List String := []
  /-- The inside tags that none may follow. -/
  finalNames : List String := []
  /-- A singular tag has neither children nor a closing tag. -/
  singular : Bool := false
  /-- What the closing names put in front of the opening ones. -/
  closingWord : String := "end"
  readArgs : String → TagRole → String → Except ArgumentProblem TagArgs
  render : Tag → Scope → Services → ChildrenRenderer → Render Outcome

namespace TagPlugin

/-- The names of the closing tags. -/
def closingNames (p : TagPlugin) : List String :=
  if p.singular then [] else p.names.map (p.closingWord ++ ·)

/-- Whether a tag of the family stands alone. -/
def isSingular (p : TagPlugin) (t : Tag) : Bool :=
  t.role == .opening && p.singular

/-- The family as listings show it. -/
def listing (p : TagPlugin) : String :=
  "<" ++ p.label ++ " " ++ p.family ++ ">"

end TagPlugin

/-! ## Conventions of the built-in families -/

/-- A signature that has to be blank. -/
def requireBlank (tag signature : String) : Except ArgumentProblem Unit :=
  if Text.blank signature then .ok () else .error (.unwanted tag signature)

/-- A signature that must not be blank. -/
def requireSignature (tag signature : String) : Except ArgumentProblem String :=
  if Text.blank signature then .error (.required tag) else .ok signature

/-- Reads an expression as an argument. -/
def readExpr (source : String) : Except ArgumentProblem Expr :=
  (Expr.read source).mapError .expression

/-- Reads a signature that is an expression. -/
def readSignature (tag signature : String) : Except ArgumentProblem TagArgs := do
  return .expr (← readExpr (← requireSignature tag signature))

/-- Evaluates the expression of a tag. Only a tree built by hand has a tag that lacks one. -/
def Tag.evaluate (t : Tag) (services : Services) (s : Scope) : Render Value :=
  match t.args with
  | .expr e => Render.ofResult (services.evaluate e s)
  | _ => throw (.fault (.foreign .attribute "'NoneType' object has no attribute 'get_type'"))

end TemplateEngine

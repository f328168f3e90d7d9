/-
Contexts of a template. A stack of contexts follows the delimiters: an opening one enters a context
from the content, and the matching closing one leaves it. In a comment all other delimiters are plain
text; anywhere else a delimiter that does not fit is refused and changes nothing.
-/
import TemplateEngine.Template.Token

namespace TemplateEngine.Template

/-- Where a token stands. -/
inductive Context where
  | content | tag | expression | comment
  deriving DecidableEq, Repr

/-- The name of a context in messages. -/
def Context.name : Context → String
  | content => "content"
  | tag => "tag"
  | expression => "expression"
  | comment => "comment"

/-- What a delimiter does to the stack. -/
inductive Move where
  | enter (c : Context)
  | leave
  deriving DecidableEq, Repr

/-- The move of a delimiter in a context, if it fits there. -/
def move? : Context → Delimiter → Option Move
  | .content, .commentOpen => some (.enter .comment)
  | .comment, .commentClose => some .leave
  | .content, .outputOpen => some (.enter .expression)
  | .expression, .outputClose => some .leave
  | .content, .tagOpen => some (.enter .tag)
  | .tag, .tagClose => some .leave
  | _, _ => none

/-- The open contexts, innermost first, and the line of the last token. -/
structure ContextStack where
  contexts : List Context := [.content]
  line : Nat := 1
  deriving DecidableEq, Repr

/-- Why the stack refuses a token or the end of a template. -/
inductive ContextProblem where
  | unexpected (value : String) (context : Context)
  | endInside (context : Context)
  deriving DecidableEq, Repr

/-- The text of the problem. -/
def ContextProblem.message : ContextProblem → String
  | unexpected value context => s!"Unexpected '{value}' in {context.name}"
  | endInside context => s!"Unexpected end of template inside {context.name}"

namespace ContextStack

/-- The innermost context. -/
def top (s : ContextStack) : Context :=
  s.contexts.headD .content

/-- The number of open contexts. -/
def depth (s : ContextStack) : Nat :=
  s.contexts.length

/-- Takes a token in: for a text the context that it belongs to, for a delimiter the context that it
closes, if any. -/
def feed (s : ContextStack) (t : Token) : Except ContextProblem (Option Context) × ContextStack :=
  let here := { s with line := t.line }
  match t.kind with
  | .text => (.ok (some s.top), here)
  | .delimiter d =>
    match move? s.top d with
    | some (.enter c) => (.ok none, { here with contexts := c :: s.contexts })
    | some .leave => (.ok (some s.top), { here with contexts := s.contexts.tail })
    | none =>
      if s.top = .comment then (.ok none, here)
      else (.error (.unexpected t.value s.top), here)

/-- A template may end only where no context but the content is open. -/
def finish (s : ContextStack) : Except ContextProblem Unit :=
  if s.depth = 1 then .ok () else .error (.endInside s.top)

end ContextStack

end TemplateEngine.Template

/-
Errors of a template text, each with the name of the template and the line of the construct.
-/
import TemplateEngine.Expr.Error
import TemplateEngine.Tag.Markup
import TemplateEngine.Template.Context

namespace TemplateEngine

open TemplateEngine.Template

/-- Why the signature of a tag is no argument of it. -/
inductive ArgumentProblem where
  | unwanted (tag : String) (signature : String)
  | required (tag : String)
  | filterChain (tag : String) (signature : String)
  | loopShape (signature : String)
  | bindingShape (signature : String)
  | expression (e : ReadFailure)
  | fault (f : Fault)
  /-- An error of the plugin without a text: asking for it fails with the fault. -/
  | unwritten (f : Fault)
  deriving DecidableEq, Repr

/-- The text of an argument problem. -/
def ArgumentProblem.message : ArgumentProblem → String
  | unwanted tag signature => s!"'{tag}' takes no arguments, got '{signature}'"
  | required tag => s!"'{tag}' requires an expression"
  | filterChain tag signature => s!"'{tag}' expects a filter chain, got '{signature}'"
  | loopShape signature => s!"Expected 'for <name>[, <name>] in <expression>', got '{signature}'"
  | bindingShape signature => s!"Expected 'with <name> = <expression>', got '{signature}'"
  | expression e => e.message
  | fault f => f.message
  | unwritten _ => ""

/-- What is wrong with a template text. -/
inductive TemplateProblem where
  | context (p : ContextProblem)
  | emptyOutput
  | missingTagName
  | unknownTag (name : String)
  | arguments (tag : String) (problem : ArgumentProblem)
  /-- A closing tag whose family is not open here; no tag stands for the root. -/
  | cannotClose (current : Option TagMarkup) (closing : TagMarkup)
  | cannotInclude (inside : TagMarkup) (current : Option TagMarkup)
  | afterFinal (inside current : TagMarkup) (expected : String)
  | unclosed (tag : TagMarkup)
  deriving DecidableEq, Repr

/-- How the place of a problem is called. -/
def placeText : Option TagMarkup → String
  | some m => m.text
  | none => "template root"

/-- The text of a template problem. -/
def TemplateProblem.message : TemplateProblem → String
  | context p => p.message
  | emptyOutput => "Empty expression"
  | missingTagName => "Missing tag name"
  | unknownTag name => s!"Unknown tag '{name}'"
  | arguments tag problem => s!"Invalid arguments for tag '{tag}': {problem.message}"
  | cannotClose current closing => s!"Can't close {placeText current} with {closing.text}"
  | cannotInclude inside current => s!"Can't include {inside.text} in {placeText current}"
  | afterFinal inside current expected => s!"{inside.text} can't follow {current.text}, expected {expected}"
  | unclosed tag => s!"{tag.text} left unclosed"

/-- A problem at a line of a template; a tag that is looked up outside of a template has no line. -/
structure TemplateError where
  name : String
  line : Option Nat
  problem : TemplateProblem
  deriving DecidableEq, Repr

/-- A place in a template, as it is written in front of messages. -/
def locationText (name : String) (line : Option Nat) : String :=
  match line with
  | some n => s!"[{name}:{n}] "
  | none => s!"[{name}:?] "

/-- The text of a template error. -/
def TemplateError.message (e : TemplateError) : String :=
  locationText e.name e.line ++ e.problem.message

/-- The kinds of template errors. -/
inductive TemplateErrorKind where
  | misplaced | unknownTag | malformedTag | mismatched | unterminated
  deriving DecidableEq, Repr

/-- The kind of a template problem. -/
def TemplateProblem.kind : TemplateProblem → TemplateErrorKind
  | context (.unexpected _ _) => .misplaced
  | context (.endInside _) => .unterminated
  | emptyOutput => .misplaced
  | missingTagName => .malformedTag
  | unknownTag _ => .unknownTag
  | arguments _ _ => .malformedTag
  | cannotClose _ _ => .mismatched
  | cannotInclude _ _ => .mismatched
  | afterFinal _ _ _ => .mismatched
  | unclosed _ => .unterminated

end TemplateEngine

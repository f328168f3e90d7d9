/-
Why a source is no expression.
-/
import TemplateEngine.Expr.Token
import TemplateEngine.Fault

namespace TemplateEngine

/-- What is wrong at a position of a source. -/
inductive ExprProblem where
  | unexpectedChar (c : Char)
  | empty
  | unexpectedEnd
  | unexpectedToken (text : String)
  | filterName
  | elseBranch
  | memberName
  | indexClose
  | groupClose
  | closing (s : Symbol)
  | entryColon
  deriving DecidableEq, Repr

/-- The text of a problem. -/
def ExprProblem.message : ExprProblem → String
  | unexpectedChar c => s!"Unexpected character '{c}'"
  | empty => "Empty expression"
  | unexpectedEnd => "Unexpected end of expression"
  | unexpectedToken text => s!"Unexpected token '{text}'"
  | filterName => "Expected filter name after '|'"
  | elseBranch => "Expected 'else' in conditional expression"
  | memberName => "Expected attribute name after '.'"
  | indexClose => "Expected ']' after index"
  | groupClose => "Expected ')' after grouped expression"
  | closing s => s!"Expected '{s.text}'"
  | entryColon => "Expected ':' after dictionary key"

/-- A problem at a position. -/
structure ExprError where
  problem : ExprProblem
  position : Nat
  deriving DecidableEq, Repr

/-- The text of an error. -/
def ExprError.message (e : ExprError) : String :=
  s!"Parse error at position {e.position}: {e.problem.message}"

/-- Why a source is not read: it has another form, or an integer with too many digits. -/
inductive ReadFailure where
  | malformed (e : ExprError)
  | tooManyDigits (count : Nat)
  deriving DecidableEq, Repr

/-- The text of the failure. -/
def ReadFailure.message : ReadFailure → String
  | malformed e => e.message
  | tooManyDigits count => (ValueProblem.digitsRead count).message

end TemplateEngine

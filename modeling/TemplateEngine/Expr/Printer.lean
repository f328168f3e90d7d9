/-
The text of expressions. Operations with two operands are written in parentheses, so that the text
shows how they nest; constants are written in their quoted form. An expression with an integer beyond
the limit on digits is not shown.
-/
import TemplateEngine.Expr.Basic
import TemplateEngine.Fault
import TemplateEngine.Number.Notation
import TemplateEngine.Text.Quoted

namespace TemplateEngine

/-- The quoted form of a constant. -/
def Literal.text : Literal → String
  | none => "None"
  | bool b => if b then "True" else "False"
  | int n => toString n
  | float x => Number.floatText x
  | str s => Text.quoted s

/-- Whether a constant can be shown. -/
def Literal.isShown : Literal → Bool
  | int n => (Number.intText? n).isSome
  | _ => true

namespace Expr

mutual

/-- The text of an expression. -/
def text : Expr → String
  | literal l => l.text
  | name n => n
  | member target n => target.text ++ "." ++ n
  | item target key => target.text ++ "[" ++ key.text ++ "]"
  | call function args => function.text ++ "(" ++ ", ".intercalate (texts args) ++ ")"
  | unary op operand => op.symbol ++ operand.text
  | binary op l r => "(" ++ l.text ++ " " ++ op.symbol ++ " " ++ r.text ++ ")"
  | logical op l r => "(" ++ l.text ++ " " ++ op.symbol ++ " " ++ r.text ++ ")"
  | not operand => "not " ++ operand.text
  | compare op l r => "(" ++ l.text ++ " " ++ op.symbol ++ " " ++ r.text ++ ")"
  | conditional body c orElse => "(" ++ body.text ++ " if " ++ c.text ++ " else " ++ orElse.text ++ ")"
  | list items => "[" ++ ", ".intercalate (texts items) ++ "]"
  | dict entries => "\x7b" ++ ", ".intercalate (entryTexts entries) ++ "\x7d"
  | filter value n args =>
    let stage := value.text ++ " | " ++ n
    if args.isEmpty then stage else stage ++ ": " ++ ", ".intercalate (texts args)

/-- The texts of some expressions. -/
def texts : List Expr → List String
  | [] => []
  | e :: es => e.text :: texts es

/-- The texts of the entries of a mapping. -/
def entryTexts : List (Expr × Expr) → List String
  | [] => []
  | (k, v) :: es => (k.text ++ ": " ++ v.text) :: entryTexts es

end

mutual

/-- Whether all constants of an expression can be shown. -/
def isShown : Expr → Bool
  | literal l => l.isShown
  | name _ => true
  | member target _ => target.isShown
  | item target key => target.isShown && key.isShown
  | call function args => function.isShown && allShown args
  | unary _ operand => operand.isShown
  | binary _ l r => l.isShown && r.isShown
  | logical _ l r => l.isShown && r.isShown
  | not operand => operand.isShown
  | compare _ l r => l.isShown && r.isShown
  | conditional body c orElse => body.isShown && c.isShown && orElse.isShown
  | list items => allShown items
  | dict entries => allEntriesShown entries
  | filter value _ args => value.isShown && allShown args

/-- Whether some expressions can be shown. -/
def allShown : List Expr → Bool
  | [] => true
  | e :: es => e.isShown && allShown es

/-- Whether some entries can be shown. -/
def allEntriesShown : List (Expr × Expr) → Bool
  | [] => true
  | (k, v) :: es => k.isShown && v.isShown && allEntriesShown es

end

/-- The text of an expression in a message. -/
def shown (e : Expr) : Except Fault String :=
  if e.isShown then .ok e.text else .error (.value .digitsWritten)

end Expr

end TemplateEngine

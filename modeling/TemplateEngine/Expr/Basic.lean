/-
Expressions: the tree of an output, a condition or an argument.
-/
namespace TemplateEngine

/-- A constant written in an expression. -/
inductive Literal where
  | none
  | bool (b : Bool)
  | int (n : Int)
  | float (x : Float)
  | str (s : String)

/-- The arithmetic signs in front of an operand. -/
inductive UnaryOp where
  | neg | pos
  deriving DecidableEq, Repr

/-- The arithmetic operators, and `concat`, which joins output texts. -/
inductive BinaryOp where
  | add | sub | mul | div | floorDiv | mod | concat
  deriving DecidableEq, Repr

/-- The operators that choose one of their operands. -/
inductive LogicalOp where
  | and | or
  deriving DecidableEq, Repr

/-- The comparisons. -/
inductive CompareOp where
  | eq | ne | lt | le | gt | ge | mem | notMem
  deriving DecidableEq, Repr

/-- An expression. -/
inductive Expr where
  | literal (l : Literal)
  | name (n : String)
  | member (target : Expr) (name : String)
  | item (target key : Expr)
  | call (function : Expr) (args : List Expr)
  | unary (op : UnaryOp) (operand : Expr)
  | binary (op : BinaryOp) (left right : Expr)
  | logical (op : LogicalOp) (left right : Expr)
  | not (operand : Expr)
  | compare (op : CompareOp) (left right : Expr)
  | conditional (body condition orElse : Expr)
  | list (items : List Expr)
  | dict (entries : List (Expr × Expr))
  /-- A stage of a pipeline: the value is passed to a filter, with further arguments. -/
  | filter (value : Expr) (name : String) (args : List Expr)

/-- The sign as it is written. -/
def UnaryOp.symbol : UnaryOp → String
  | neg => "-"
  | pos => "+"

/-- The operator as it is written. -/
def BinaryOp.symbol : BinaryOp → String
  | add => "+"
  | sub => "-"
  | mul => "*"
  | div => "/"
  | floorDiv => "//"
  | mod => "%"
  | concat => "~"

/-- The operator as it is written. -/
def LogicalOp.symbol : LogicalOp → String
  | and => "and"
  | or => "or"

/-- The comparison as it is written. -/
def CompareOp.symbol : CompareOp → String
  | eq => "=="
  | ne => "!="
  | lt => "<"
  | le => "<="
  | gt => ">"
  | ge => ">="
  | mem => "in"
  | notMem => "not in"

end TemplateEngine

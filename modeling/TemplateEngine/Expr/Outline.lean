/-
The outline of expressions: the kind of each node and its parts by name. Messages show the arguments
of a tag in this form.
-/
import TemplateEngine.Expr.Printer

namespace TemplateEngine

/-- A kind with its parts in parentheses. -/
def outlineOf (kind : String) (parts : List (String × String)) : String :=
  kind ++ "(" ++ ", ".intercalate (parts.map fun p => p.1 ++ "=" ++ p.2) ++ ")"

/-- Parts in brackets. -/
def outlineList (parts : List String) : String :=
  "[" ++ ", ".intercalate parts ++ "]"

namespace Expr

mutual

/-- The outline of an expression. -/
def outline : Expr → String
  | literal l => outlineOf "Literal" [("value", l.text)]
  | name n => outlineOf "Name" [("name", Text.quoted n)]
  | member target n => outlineOf "Attribute" [("target", target.outline), ("name", Text.quoted n)]
  | item target key => outlineOf "Subscript" [("target", target.outline), ("key", key.outline)]
  | call function args =>
    outlineOf "Call" [("func", function.outline), ("args", outlineList (outlines args))]
  | unary op operand =>
    outlineOf "Unary" [("operator", Text.quoted op.symbol), ("operand", operand.outline)]
  | binary op l r =>
    outlineOf "Binary" [("left", l.outline), ("right", r.outline), ("operator", Text.quoted op.symbol)]
  | logical op l r =>
    outlineOf "Logical" [("left", l.outline), ("right", r.outline), ("operator", Text.quoted op.symbol)]
  | not operand => outlineOf "Not" [("operand", operand.outline)]
  | compare op l r =>
    outlineOf "Compare" [("left", l.outline), ("right", r.outline), ("operator", Text.quoted op.symbol)]
  | conditional body c orElse =>
    outlineOf "Conditional"
      [("body", body.outline), ("condition", c.outline), ("orelse", orElse.outline)]
  | list items => outlineOf "ListExpr" [("items", outlineList (outlines items))]
  | dict entries => outlineOf "DictExpr" [("items", outlineList (entryOutlines entries))]
  | filter value n args =>
    outlineOf "Filter"
      [("value", value.outline), ("name", Text.quoted n), ("args", outlineList (outlines args))]

/-- The outlines of some expressions. -/
def outlines : List Expr → List String
  | [] => []
  | e :: es => e.outline :: outlines es

/-- The outlines of the entries of a mapping, as pairs. -/
def entryOutlines : List (Expr × Expr) → List String
  | [] => []
  | (k, v) :: es => ("(" ++ k.outline ++ ", " ++ v.outline ++ ")") :: entryOutlines es

end

end Expr

end TemplateEngine

/-
The outline of a node, as it is shown where a tree refuses a node that it has already.
-/
import TemplateEngine.Expr.Outline
import TemplateEngine.Template.Tree

namespace TemplateEngine

/-- The names of a tuple. -/
def outlineNames : List String → String
  | [n] => "(" ++ Text.quoted n ++ ",)"
  | ns => "(" ++ ", ".intercalate (ns.map Text.quoted) ++ ")"

/-- The outline of a role. -/
def TagRole.outline (r : TagRole) : String :=
  "<TagRole." ++ r.name.toUpper ++ ": " ++ Text.quoted r.name ++ ">"

/-- The outline of the arguments of a tag. -/
def TagArgs.outline : TagArgs → Except Fault String
  | none => .ok "None"
  | expr e => .ok e.outline
  | loop target second iterable =>
    .ok (outlineOf "LoopArgs"
      [("targets", outlineNames (target :: second.toList)), ("iterable", iterable.outline)])
  | .binding target v =>
    .ok (outlineOf "WithArgs" [("target", Text.quoted target), ("value", v.outline)])
  | value v => v.quotedForm

/-- The outline of the node of a number. -/
def NodeContent.outline (h : Nat) : NodeContent → Except Fault String
  | root => .ok (outlineOf "RootNode" [("handle", toString h)])
  | text s => .ok (outlineOf "TextNode" [("handle", toString h), ("text", Text.quoted s)])
  | output source line =>
    .ok (outlineOf "ExpressionNode"
      [("handle", toString h), ("source", Text.quoted source), ("line", toString line)])
  | bare => .ok (outlineOf "TemplateNode" [("handle", toString h)])
  | tag plugin t => do
    let args ← t.args.outline
    return outlineOf "TagNode"
      [("handle", toString h), ("name", Text.quoted t.name), ("role", t.role.outline),
        ("signature", Text.quoted t.signature), ("family", Text.quoted plugin.family), ("args", args),
        ("line", toString t.line), ("template_name", Text.quoted t.template)]

/-- The fault of a node that is not added to a tree. -/
def Tree.AppendProblem.fault (t : Tree) : Tree.AppendProblem → Fault
  | .owned h =>
    match (t.content? h).map (NodeContent.outline h) with
    | some (.ok shown) => .value (.ownedNode shown)
    | some (.error f) => f
    | none => .foreign .index "list index out of range"
  | .noParent _ => .foreign .index "list index out of range"

end TemplateEngine

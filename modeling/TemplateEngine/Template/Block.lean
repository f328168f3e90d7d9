/-
Blocks: the nested form of a template. An inside tag is the last block of the tag that it belongs to,
and holds what follows it.
-/
import TemplateEngine.Tag.Registry

namespace TemplateEngine

/-- A block of a template. -/
inductive Block where
  | text (s : String)
  /-- The source of an output, and the line on which it starts. -/
  | output (source : String) (line : Nat)
  | tag (plugin : TagPlugin) (tag : Tag) (children : List Block)
  /-- A node of no kind; it cannot be rendered. -/
  | bare

/-- Whether a block is an inside tag. -/
def Block.isInside : Block → Bool
  | tag _ t _ => t.role == .inside
  | _ => false

/-- A template: its name and its blocks. -/
structure Template where
  name : String
  blocks : List Block

end TemplateEngine

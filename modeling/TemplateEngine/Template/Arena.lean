/-
Trees that are built by hand: the nodes stand in the order in which they are added, and each keeps its handle, the
handle of its parent and those of its children. Nothing but the order in which they are added makes a tree of them.
-/
import TemplateEngine.Template.Tree

namespace TemplateEngine

/-- A node, which has a handle and a parent as soon as it belongs to a tree. -/
structure ArenaNode where
  content : NodeContent
  handle : Option Nat := none
  parent : Option Nat := none
  children : List Nat := []

/-- A node that belongs to no tree. -/
def ArenaNode.new (content : NodeContent) : ArenaNode :=
  { content := content }

/-- The node with one more child, the last one. -/
def ArenaNode.addChild (h : Nat) (n : ArenaNode) : ArenaNode :=
  { n with children := n.children ++ [h] }

/-- The nodes by their handles, the root first. -/
structure Arena where
  name : String
  nodes : List ArenaNode

namespace Arena

/-- The arena of the root alone. -/
def start (name : String) : Arena :=
  ⟨name, [{ content := .root, handle := some 0 }]⟩

/-- The number of nodes. -/
def size (a : Arena) : Nat :=
  a.nodes.length

/-- The parent of a node. -/
def parent? (a : Arena) (h : Nat) : Option Nat :=
  a.nodes[h]?.bind (·.parent)

/-- The children of a node, in order. -/
def children (a : Arena) (h : Nat) : List Nat :=
  (a.nodes[h]?.map (·.children)).getD []

/-- Adds a node as the last child of another, and answers its handle. The parent is looked up when the node has been
added, so that a node is left without a place below a parent that does not exist. -/
def append (a : Arena) (parent : Nat) (n : ArenaNode) : Except Tree.AppendProblem Nat × Arena :=
  match n.handle with
  | some h => (.error (.owned h), a)
  | none =>
    let nodes := a.nodes ++ [{ n with handle := some a.size, parent := some parent }]
    if parent < nodes.length then (.ok a.size, { a with nodes := nodes.modify parent (.addChild a.size) })
    else (.error (.noParent parent), { a with nodes := nodes })

/-- What is passed to `append`. -/
structure Call where
  parent : Nat
  node : ArenaNode

/-- The arena after a call, which may have failed. -/
def call (a : Arena) (c : Call) : Arena :=
  (a.append c.parent c.node).2

/-- The handles of a node and all nodes below it, each with the nodes below it before the next child, if the nodes
stand on no more levels than `depth` and every child exists. -/
def walkTo (a : Arena) (depth : Nat) (h : Nat) : Option (List Nat) :=
  match depth with
  | 0 => none
  | depth + 1 => do
    let n ← a.nodes[h]?
    let below ← n.children.mapM (a.walkTo depth)
    return h :: below.flatten

/-- The handles of a node and all nodes below it. No node stands above itself in a walk that ends, so its levels are
not more than the nodes; a walk along lists that go round does not end, and has no result. -/
def walk (a : Arena) (h : Nat) : Option (List Nat) :=
  a.walkTo a.size h

/-- The tree of the recorded parents, which is what a renderer reads. -/
def toTree (a : Arena) : Tree :=
  ⟨a.name, a.nodes.tail.map fun n => ⟨n.parent.getD 0, n.content⟩⟩

end Arena

end TemplateEngine

/-
Trees: the flat form of a template. The nodes are numbered in the order in which they are added, the
root being number zero, and each knows its parent. A node's children come after it, so that every
walk ends.
-/
import TemplateEngine.Template.Block

namespace TemplateEngine

/-- What a node holds. -/
inductive NodeContent where
  | root
  | text (s : String)
  | output (source : String) (line : Nat)
  | tag (plugin : TagPlugin) (tag : Tag)
  | bare

/-- A node below the root. -/
structure TreeNode where
  parent : Nat
  content : NodeContent

/-- The nodes below the root, in the order of their numbers. -/
structure Tree where
  name : String
  nodes : List TreeNode := []

namespace Tree

/-- The number of nodes. -/
def size (t : Tree) : Nat :=
  t.nodes.length + 1

/-- The node of a number above zero. -/
def node? (t : Tree) (h : Nat) : Option TreeNode :=
  match h with
  | 0 => none
  | h + 1 => t.nodes[h]?

/-- What the node of a number holds. -/
def content? (t : Tree) (h : Nat) : Option NodeContent :=
  match h with
  | 0 => some .root
  | h => (t.node? h).map (·.content)

/-- The parent of a node. -/
def parent? (t : Tree) (h : Nat) : Option Nat :=
  (t.node? h).map (·.parent)

/-- The children of a node, in order. -/
def children (t : Tree) (h : Nat) : List Nat :=
  (t.nodes.zipIdx 1).filterMap fun n => if h < n.2 ∧ n.1.parent = h then some n.2 else none

/-- A request to add a node: a new one, or one that the tree has already. -/
inductive Addition where
  | fresh (content : NodeContent)
  | again (h : Nat)

/-- Why a node is not added. -/
inductive AppendProblem where
  | owned (h : Nat)
  | noParent (h : Nat)
  deriving DecidableEq, Repr

/-- Adds a node as the last child of an existing one. -/
def append (t : Tree) (parent : Nat) (a : Addition) : Except AppendProblem Tree :=
  match a with
  | .again h => .error (.owned h)
  | .fresh content =>
    if parent < t.size then .ok { t with nodes := t.nodes ++ [⟨parent, content⟩] }
    else .error (.noParent parent)

theorem parent?_eq_some {t : Tree} {h c : Nat} :
    t.parent? c = some h ↔ 0 < c ∧ ∃ n, t.nodes[c - 1]? = some n ∧ n.parent = h := by
  cases c <;> simp [parent?, node?]

theorem mem_children {t : Tree} {h c : Nat} :
    c ∈ t.children h ↔ c < t.size ∧ h < c ∧ t.parent? c = some h := by
  rw [parent?_eq_some]
  simp only [children, List.mem_filterMap, Prod.exists, List.mk_mem_zipIdx_iff_le_and_getElem?_sub]
  constructor
  · rintro ⟨n, i, ⟨hi, hn⟩, hc⟩
    split at hc
    next hp =>
      cases hc
      have := (List.getElem?_eq_some_iff.1 hn).1
      exact ⟨by simp only [size]; omega, hp.1, hi, n, hn, hp.2⟩
    next => cases hc
  · rintro ⟨_, hc, hpos, n, hn, hp⟩
    exact ⟨n, c, ⟨hpos, hn⟩, if_pos ⟨hc, hp⟩⟩

theorem lt_of_mem_children {t : Tree} {h c : Nat} (hc : c ∈ t.children h) : h < c ∧ c < t.size :=
  ⟨(mem_children.1 hc).2.1, (mem_children.1 hc).1⟩

/-- The numbers of a node and all nodes below it, parents before children. -/
def walk (t : Tree) (h : Nat) : List Nat :=
  h :: (t.children h).attach.flatMap fun ⟨c, _⟩ => t.walk c
  termination_by t.size - h
  decreasing_by have := lt_of_mem_children ‹_›; omega

/-- The nested form of a node; what is below a node that is no tag is not rendered. -/
def block (t : Tree) (h : Nat) : Block :=
  match t.content? h with
  | some (.text s) => .text s
  | some (.output source line) => .output source line
  | some (.tag plugin tag) => .tag plugin tag ((t.children h).attach.map fun ⟨c, _⟩ => t.block c)
  | _ => .bare
  termination_by t.size - h
  decreasing_by have := lt_of_mem_children ‹_›; omega

/-- The nested forms of the children of the root. -/
def blocks (t : Tree) : List Block :=
  (t.children 0).map t.block

mutual

/-- Adds a block and what it holds below a node. -/
def addBlock (parent : Nat) (t : Tree) : Block → Tree
  | .text s => { t with nodes := t.nodes ++ [⟨parent, .text s⟩] }
  | .output source line => { t with nodes := t.nodes ++ [⟨parent, .output source line⟩] }
  | .bare => { t with nodes := t.nodes ++ [⟨parent, .bare⟩] }
  | .tag plugin tag children =>
    addBlocks t.size { t with nodes := t.nodes ++ [⟨parent, .tag plugin tag⟩] } children

/-- Adds blocks below a node, each with what it holds. -/
def addBlocks (parent : Nat) (t : Tree) : List Block → Tree
  | [] => t
  | b :: bs => addBlocks parent (addBlock parent t b) bs

end

/-- The flat form of a template. -/
def ofTemplate (t : Template) : Tree :=
  addBlocks 0 ⟨t.name, []⟩ t.blocks

end Tree

end TemplateEngine

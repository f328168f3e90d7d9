/-
The nodes of a tree that is the flat form of a template. Each block has a run of numbers, its own first
and then those of the blocks that it holds, so that the walk visits the nodes in the order of their numbers.
-/
import Mathlib.Data.List.Range
import TemplateEngine.Template.Tree

namespace TemplateEngine

/-! ## Contents -/

mutual

/-- What the nodes of a block hold: the block, and then the blocks that it holds. -/
def Block.contents : Block → List NodeContent
  | .text s => [.text s]
  | .output source line => [.output source line]
  | .bare => [.bare]
  | .tag plugin t children => .tag plugin t :: Block.contentsAll children

/-- What the nodes of some blocks hold, block after block. -/
def Block.contentsAll : List Block → List NodeContent
  | [] => []
  | b :: bs => b.contents ++ Block.contentsAll bs

end

theorem Block.contentsAll_append (bs cs : List Block) :
    Block.contentsAll (bs ++ cs) = Block.contentsAll bs ++ Block.contentsAll cs := by
  induction bs with
  | nil => rfl
  | cons b bs ih => rw [List.cons_append, contentsAll, ih, contentsAll, List.append_assoc]

namespace Tree

/-! ## Numbered nodes -/

mutual

/-- The nodes of a block below a parent, numbered from `n` on. -/
def blockNodes (parent n : Nat) : Block → List TreeNode
  | .text s => [⟨parent, .text s⟩]
  | .output source line => [⟨parent, .output source line⟩]
  | .bare => [⟨parent, .bare⟩]
  | .tag plugin t children => ⟨parent, .tag plugin t⟩ :: blocksNodes n (n + 1) children

/-- The nodes of some blocks below a parent, numbered from `n` on. -/
def blocksNodes (parent n : Nat) : List Block → List TreeNode
  | [] => []
  | b :: bs => blockNodes parent n b ++ blocksNodes parent (n + b.contents.length) bs

end

mutual

theorem map_content_blockNodes (parent n : Nat) :
    ∀ b : Block, (blockNodes parent n b).map TreeNode.content = b.contents
  | .text _ => rfl
  | .output _ _ => rfl
  | .bare => rfl
  | .tag plugin t children => congrArg (NodeContent.tag plugin t :: ·) (map_content_blocksNodes n (n + 1) children)

theorem map_content_blocksNodes (parent n : Nat) :
    ∀ bs : List Block, (blocksNodes parent n bs).map TreeNode.content = Block.contentsAll bs
  | [] => rfl
  | b :: bs => by
    rw [blocksNodes, List.map_append, map_content_blockNodes, map_content_blocksNodes, Block.contentsAll]

end

@[simp] theorem length_blockNodes (parent n : Nat) (b : Block) :
    (blockNodes parent n b).length = b.contents.length := by
  rw [← map_content_blockNodes parent n b, List.length_map]

@[simp] theorem length_blocksNodes (parent n : Nat) (bs : List Block) :
    (blocksNodes parent n bs).length = (Block.contentsAll bs).length := by
  rw [← map_content_blocksNodes parent n bs, List.length_map]

mutual

/-- Adding a block adds its nodes, numbered from the size of the tree on. -/
theorem addBlock_eq (parent : Nat) (t : Tree) :
    ∀ b : Block, addBlock parent t b = { t with nodes := t.nodes ++ blockNodes parent t.size b }
  | .text _ => rfl
  | .output _ _ => rfl
  | .bare => rfl
  | .tag plugin u children => by
    rw [addBlock, addBlocks_eq, blockNodes]
    simp [size]

theorem addBlocks_eq (parent : Nat) (t : Tree) :
    ∀ bs : List Block, addBlocks parent t bs = { t with nodes := t.nodes ++ blocksNodes parent t.size bs }
  | [] => by rw [addBlocks, blocksNodes, List.append_nil]
  | b :: bs => by
    rw [addBlocks, addBlock_eq, addBlocks_eq, blocksNodes]
    simp [size, Nat.add_right_comm]

end

theorem nodes_ofTemplate (t : Template) : (ofTemplate t).nodes = blocksNodes 0 1 t.blocks := by
  rw [ofTemplate, addBlocks_eq]
  rfl

/-! ## Parents -/

mutual

/-- Below a parent there are, apart from its children, only nodes of parents with a number of the run. -/
theorem parent_of_mem_blockNodes {parent n : Nat} {x : TreeNode} :
    ∀ {b : Block}, x ∈ blockNodes parent n b →
      x.parent = parent ∨ (n ≤ x.parent ∧ x.parent < n + b.contents.length)
  | .text _, h => .inl (by cases List.mem_singleton.1 h; rfl)
  | .output _ _, h => .inl (by cases List.mem_singleton.1 h; rfl)
  | .bare, h => .inl (by cases List.mem_singleton.1 h; rfl)
  | .tag plugin t children, h => by
    rcases List.mem_cons.1 h with rfl | h
    · exact .inl rfl
    · rw [Block.contents, List.length_cons]
      rcases parent_of_mem_blocksNodes h with h | h <;> right <;> omega

theorem parent_of_mem_blocksNodes {parent n : Nat} {x : TreeNode} :
    ∀ {bs : List Block}, x ∈ blocksNodes parent n bs →
      x.parent = parent ∨ (n ≤ x.parent ∧ x.parent < n + (Block.contentsAll bs).length)
  | [], h => nomatch h
  | b :: bs, h => by
    rw [Block.contentsAll, List.length_append]
    rcases List.mem_append.1 h with h | h
    · rcases parent_of_mem_blockNodes h with h | h
      · exact .inl h
      · right; omega
    · rcases parent_of_mem_blocksNodes h with h | h
      · exact .inl h
      · right; omega

end

/-! ## Children -/

/-- The numbers of the children of a node among some nodes that are numbered from `n` on. -/
def childrenFrom (h n : Nat) (nodes : List TreeNode) : List Nat :=
  (nodes.zipIdx n).filterMap fun x => if h < x.2 ∧ x.1.parent = h then some x.2 else none

theorem children_eq (t : Tree) (h : Nat) : t.children h = childrenFrom h 1 t.nodes := rfl

theorem childrenFrom_cons (h n : Nat) (x : TreeNode) (nodes : List TreeNode) :
    childrenFrom h n (x :: nodes) =
      (if h < n ∧ x.parent = h then [n] else []) ++ childrenFrom h (n + 1) nodes := by
  rw [childrenFrom, List.zipIdx_cons, List.filterMap_cons, ← childrenFrom]
  dsimp only
  split <;> rename_i heq <;> split at heq <;> simp_all

theorem childrenFrom_append (h n : Nat) (xs ys : List TreeNode) :
    childrenFrom h n (xs ++ ys) = childrenFrom h n xs ++ childrenFrom h (n + xs.length) ys := by
  rw [childrenFrom, List.zipIdx_append, List.filterMap_append]
  rfl

/-- Children come after their parent. -/
theorem childrenFrom_of_length_le {h n : Nat} {nodes : List TreeNode} (hl : n + nodes.length ≤ h + 1) :
    childrenFrom h n nodes = [] := by
  induction nodes generalizing n with
  | nil => rfl
  | cons x nodes ih =>
    rw [List.length_cons] at hl
    rw [childrenFrom_cons, if_neg (by omega), ih (by omega), List.append_nil]

theorem childrenFrom_of_parent_ne {h n : Nat} {nodes : List TreeNode} (hp : ∀ x ∈ nodes, x.parent ≠ h) :
    childrenFrom h n nodes = [] := by
  induction nodes generalizing n with
  | nil => rfl
  | cons x nodes ih =>
    rw [childrenFrom_cons, if_neg (fun hx => hp x (List.mem_cons_self ..) hx.2),
      ih fun y hy => hp y (List.mem_cons_of_mem _ hy), List.append_nil]

/-- The numbers of the nodes of some blocks, without the nodes below them. -/
def starts (n : Nat) : List Block → List Nat
  | [] => []
  | b :: bs => n :: starts (n + b.contents.length) bs

/-- The first node of a block stands below the parent, and the others below nodes of the block. -/
theorem childrenFrom_blockNodes {parent n : Nat} (hn : parent < n) (b : Block) :
    childrenFrom parent n (blockNodes parent n b) = [n] := by
  cases b with
  | text s => simp [blockNodes, childrenFrom, hn]
  | output source line => simp [blockNodes, childrenFrom, hn]
  | bare => simp [blockNodes, childrenFrom, hn]
  | tag plugin t children =>
    have hinner : childrenFrom parent (n + 1) (blocksNodes n (n + 1) children) = [] := by
      refine childrenFrom_of_parent_ne fun x hx => ?_
      rcases parent_of_mem_blocksNodes hx with h | h <;> omega
    rw [blockNodes, childrenFrom_cons, hinner, if_pos ⟨hn, rfl⟩, List.append_nil]

theorem childrenFrom_blocksNodes {parent n : Nat} (hn : parent < n) (bs : List Block) :
    childrenFrom parent n (blocksNodes parent n bs) = starts n bs := by
  induction bs generalizing n with
  | nil => rfl
  | cons b bs ih =>
    rw [blocksNodes, childrenFrom_append, childrenFrom_blockNodes hn, length_blockNodes,
      ih (Nat.lt_add_right _ hn)]
    rfl

/-- The children of a node stand right after it, if no later node has it as its parent. -/
theorem children_of_nodes {t : Tree} {n : Nat} {x : TreeNode} {pre inner post : List TreeNode}
    (ht : t.nodes = pre ++ x :: (inner ++ post)) (hn : n = pre.length + 1) (hx : x.parent ≠ n)
    (hp : ∀ y ∈ post, y.parent ≠ n) : t.children n = childrenFrom n (n + 1) inner := by
  rw [children_eq, ht, childrenFrom_append, childrenFrom_of_length_le (by omega), childrenFrom_cons,
    if_neg fun h => hx h.2, childrenFrom_append, childrenFrom_of_parent_ne hp, Nat.add_comm 1, ← hn]
  simp

/-! ## The walk -/

theorem walk_eq (t : Tree) (h : Nat) : t.walk h = h :: (t.children h).flatMap t.walk := by
  rw [walk]
  simp

theorem walk_leaf {t : Tree} {n : Nat} {x : TreeNode} {pre post : List TreeNode}
    (ht : t.nodes = pre ++ ([x] ++ post)) (hn : n = pre.length + 1) (hx : x.parent < n)
    (hpost : ∀ y ∈ post, y.parent < n ∨ n + 1 ≤ y.parent) : t.walk n = List.range' n 1 := by
  have hchildren : t.children n = childrenFrom n (n + 1) [] := by
    refine children_of_nodes ht hn (Nat.ne_of_lt hx) fun y hy => ?_
    rcases hpost y hy with h | h <;> omega
  rw [walk_eq, hchildren]
  rfl

mutual

/-- The walk from the node of a block visits the run of numbers of the block. -/
theorem walk_blockNodes {t : Tree} {parent n : Nat} {pre post : List TreeNode} (hn : n = pre.length + 1)
    (hp : parent < n) :
    ∀ {b : Block}, t.nodes = pre ++ (blockNodes parent n b ++ post) →
      (∀ x ∈ post, x.parent < n ∨ n + b.contents.length ≤ x.parent) →
      t.walk n = List.range' n b.contents.length
  | .text s, ht, hpost => walk_leaf ht hn hp hpost
  | .output source line, ht, hpost => walk_leaf ht hn hp hpost
  | .bare, ht, hpost => walk_leaf ht hn hp hpost
  | .tag plugin tag children, ht, hpost => by
    rw [Block.contents, List.length_cons] at hpost ⊢
    -- the nodes before have smaller numbers, and those after it other parents
    have hchildren : t.children n = starts (n + 1) children := by
      rw [children_of_nodes ht hn (Nat.ne_of_lt hp), childrenFrom_blocksNodes (Nat.lt_succ_self n)]
      intro x hx
      rcases hpost x hx with h | h <;> omega
    have hnodes : t.nodes = (pre ++ [⟨parent, .tag plugin tag⟩]) ++ (blocksNodes n (n + 1) children ++ post) := by
      rw [ht]
      simp [blockNodes]
    have hwalk : (starts (n + 1) children).flatMap t.walk =
        List.range' (n + 1) (Block.contentsAll children).length := by
      refine walk_blocksNodes (by simp [hn]) (Nat.lt_succ_self n) hnodes fun x hx => ?_
      rcases hpost x hx with h | h
      · exact .inl (Nat.lt_succ_of_lt h)
      · right; omega
    rw [walk_eq, hchildren, hwalk, List.range'_succ]

theorem walk_blocksNodes {t : Tree} {parent n : Nat} {pre post : List TreeNode} (hn : n = pre.length + 1)
    (hp : parent < n) :
    ∀ {bs : List Block}, t.nodes = pre ++ (blocksNodes parent n bs ++ post) →
      (∀ x ∈ post, x.parent < n ∨ n + (Block.contentsAll bs).length ≤ x.parent) →
      (starts n bs).flatMap t.walk = List.range' n (Block.contentsAll bs).length
  | [], _, _ => rfl
  | b :: bs, ht, hpost => by
    rw [blocksNodes, List.append_assoc] at ht
    rw [Block.contentsAll, List.length_append] at hpost ⊢
    have hfirst : t.walk n = List.range' n b.contents.length := by
      refine walk_blockNodes hn hp ht fun x hx => ?_
      rcases List.mem_append.1 hx with hx | hx
      · rcases parent_of_mem_blocksNodes hx with h | h <;> omega
      · rcases hpost x hx with h | h <;> omega
    rw [← List.append_assoc] at ht
    have hrest : (starts (n + b.contents.length) bs).flatMap t.walk =
        List.range' (n + b.contents.length) (Block.contentsAll bs).length := by
      refine walk_blocksNodes (by simp [hn, Nat.add_right_comm]) (Nat.lt_add_right _ hp) ht fun x hx => ?_
      rcases hpost x hx with h | h <;> omega
    rw [starts, List.flatMap_cons, hfirst, hrest, List.range'_append_1]

end

theorem size_ofTemplate (t : Template) : (ofTemplate t).size = (Block.contentsAll t.blocks).length + 1 := by
  rw [size, nodes_ofTemplate, length_blocksNodes]

/-- The walk from the root visits the nodes in the order of their numbers. -/
theorem walk_ofTemplate (t : Template) : (ofTemplate t).walk 0 = List.range (ofTemplate t).size := by
  have hnodes : (ofTemplate t).nodes = [] ++ (blocksNodes 0 1 t.blocks ++ []) := by
    rw [nodes_ofTemplate, List.append_nil, List.nil_append]
  have hchildren : (ofTemplate t).children 0 = starts 1 t.blocks := by
    rw [children_eq, nodes_ofTemplate, childrenFrom_blocksNodes Nat.one_pos]
  have hwalk : (starts 1 t.blocks).flatMap (ofTemplate t).walk = List.range' 1 (Block.contentsAll t.blocks).length :=
    walk_blocksNodes rfl Nat.one_pos hnodes nofun
  rw [walk_eq, hchildren, hwalk, size_ofTemplate, List.range_eq_range', List.range'_succ]

theorem content?_succ (t : Template) (h : Nat) :
    (ofTemplate t).content? (h + 1) = (Block.contentsAll t.blocks)[h]? := by
  rw [content?, node?, nodes_ofTemplate, ← List.getElem?_map, map_content_blocksNodes]
  exact Nat.succ_ne_zero h

/-- Along the walk the nodes hold nothing but the blocks, each before those that it holds. -/
theorem map_content?_walk (t : Template) :
    ((ofTemplate t).walk 0).map (ofTemplate t).content? =
      (NodeContent.root :: Block.contentsAll t.blocks).map some := by
  rw [walk_ofTemplate]
  refine List.ext_getElem (by simp [size_ofTemplate]) fun h hl hl' => ?_
  rw [List.getElem_map, List.getElem_map, List.getElem_range]
  cases h with
  | zero => rfl
  | succ h =>
    rw [content?_succ, List.getElem_cons_succ]
    exact List.getElem?_eq_getElem _

end Tree

end TemplateEngine

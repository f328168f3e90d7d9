/-
The shape of the tree of a template that has been read. A block stands in the tree with a run of numbers, and its
children are the blocks that it holds; so each inside tag is the last child of a tag of its family, and the way up from
it through inside tags ends at the tag that opened the block.
-/
import TemplateEngine.Proofs.Template.Nodes
import TemplateEngine.Proofs.Template.Reading
import TemplateEngine.Proofs.Template.Shape
import TemplateEngine.Environment.Basic

namespace TemplateEngine

open Template

/-! ## Blocks and their nodes -/

namespace Block

/-- What the node of a block holds. -/
def content : Block → NodeContent
  | text s => .text s
  | output source line => .output source line
  | bare => .bare
  | tag p t _ => .tag p t

/-- The blocks that a block holds. -/
def children : Block → List Block
  | tag _ _ cs => cs
  | _ => []

theorem contents_eq (b : Block) : b.contents = b.content :: contentsAll b.children := by
  cases b <;> rfl

theorem eq_tag_of_content {b : Block} {p : TagPlugin} {t : Tag} (h : b.content = .tag p t) :
    b = .tag p t b.children := by
  cases b <;> cases h
  rfl

end Block

namespace Tree

theorem blockNodes_eq (parent n : Nat) (b : Block) :
    blockNodes parent n b = ⟨parent, b.content⟩ :: blocksNodes n (n + 1) b.children := by
  cases b <;> rfl

theorem blocksNodes_append (parent n : Nat) (bs cs : List Block) :
    blocksNodes parent n (bs ++ cs) =
      blocksNodes parent n bs ++ blocksNodes parent (n + (Block.contentsAll bs).length) cs := by
  induction bs generalizing n with
  | nil => rfl
  | cons b bs ih =>
    rw [List.cons_append, blocksNodes, ih, blocksNodes, Block.contentsAll, List.length_append, List.append_assoc,
      Nat.add_assoc]

theorem starts_append (n : Nat) (bs cs : List Block) :
    starts n (bs ++ cs) = starts n bs ++ starts (n + (Block.contentsAll bs).length) cs := by
  induction bs generalizing n with
  | nil => rfl
  | cons b bs ih =>
    rw [List.cons_append, starts, ih, starts, Block.contentsAll, List.length_append, List.cons_append, Nat.add_assoc]

/-! ## Places of blocks in a tree -/

/-- Some blocks stand with their nodes in a tree, below a parent and numbered from `n` on. No node after them has one of
them as its parent. -/
structure Holds (t : Tree) (parent n : Nat) (bs : List Block) : Prop where
  lt : parent < n
  nodes : ∃ pre post, n = pre.length + 1 ∧ t.nodes = pre ++ (blocksNodes parent n bs ++ post) ∧
    ∀ x ∈ post, x.parent < n ∨ n + (Block.contentsAll bs).length ≤ x.parent

theorem holds_ofTemplate (t : Template) : (ofTemplate t).Holds 0 1 t.blocks where
  lt := Nat.one_pos
  nodes := ⟨[], [], rfl, by rw [nodes_ofTemplate, List.append_nil, List.nil_append], nofun⟩

section

variable {t : Tree} {q n : Nat} {b : Block} {bs cs : List Block} {p : TagPlugin} {tag : Tag}

theorem Holds.left (h : t.Holds q n (bs ++ cs)) : t.Holds q n bs := by
  obtain ⟨hlt, pre, post, hn, ht, hpost⟩ := h
  rw [Block.contentsAll_append, List.length_append] at hpost
  rw [blocksNodes_append, List.append_assoc] at ht
  refine ⟨hlt, pre, _, hn, ht, fun x hx => ?_⟩
  rcases List.mem_append.1 hx with hx | hx
  · rcases parent_of_mem_blocksNodes hx with h | h <;> omega
  · rcases hpost x hx with h | h <;> omega

theorem Holds.right (h : t.Holds q n (bs ++ cs)) : t.Holds q (n + (Block.contentsAll bs).length) cs := by
  obtain ⟨hlt, pre, post, hn, ht, hpost⟩ := h
  rw [Block.contentsAll_append, List.length_append] at hpost
  refine ⟨Nat.lt_add_right _ hlt, pre ++ blocksNodes q n bs, post, ?_, ?_, fun x hx => ?_⟩
  · rw [List.length_append, length_blocksNodes]
    omega
  · rw [ht, blocksNodes_append]
    simp only [List.append_assoc]
  · rcases hpost x hx with h | h <;> omega

theorem Holds.head (h : t.Holds q n (b :: bs)) : t.Holds q n [b] := by
  rw [← List.singleton_append] at h
  exact h.left

theorem Holds.tail (h : t.Holds q n (b :: bs)) : t.Holds q (n + b.contents.length) bs := by
  rw [← List.singleton_append] at h
  simpa only [Block.contentsAll, List.append_nil] using h.right

/-- The nodes of a single block are its own and those of the blocks that it holds. -/
theorem Holds.singleton (h : t.Holds q n [b]) : ∃ pre post, n = pre.length + 1 ∧
    t.nodes = pre ++ ⟨q, b.content⟩ :: (blocksNodes n (n + 1) b.children ++ post) ∧
    ∀ x ∈ post, x.parent < n ∨ n + 1 + (Block.contentsAll b.children).length ≤ x.parent := by
  obtain ⟨-, pre, post, hn, ht, hpost⟩ := h
  have hlength : (Block.contentsAll [b]).length = 1 + (Block.contentsAll b.children).length := by
    rw [Block.contentsAll, Block.contentsAll, List.append_nil, Block.contents_eq, List.length_cons, Nat.add_comm]
  refine ⟨pre, post, hn, ?_, fun x hx => ?_⟩
  · rw [ht, blocksNodes, blocksNodes, List.append_nil, blockNodes_eq, List.cons_append]
  · rcases hpost x hx with h | h <;> omega

theorem Holds.below (h : t.Holds q n [b]) : t.Holds n (n + 1) b.children := by
  obtain ⟨pre, post, hn, ht, hpost⟩ := h.singleton
  refine ⟨Nat.lt_succ_self n, pre ++ [⟨q, b.content⟩], post, by simp [hn], by simp [ht], fun x hx => ?_⟩
  rcases hpost x hx with h | h <;> omega

theorem Holds.node (h : t.Holds q n [b]) : t.node? n = some ⟨q, b.content⟩ := by
  obtain ⟨pre, post, rfl, ht, -⟩ := h.singleton
  rw [node?, ht, List.getElem?_append_right le_rfl, Nat.sub_self]
  rfl

theorem Holds.content (h : t.Holds q n [b]) : t.content? n = some b.content := by
  have hn : n ≠ 0 := Nat.ne_of_gt (Nat.zero_lt_of_lt h.lt)
  rw [content?, h.node, Option.map_some]
  exact hn

theorem Holds.parent (h : t.Holds q n [b]) : t.parent? n = some q := by
  rw [parent?, h.node, Option.map_some]

/-- The children of a block are the blocks that it holds. -/
theorem Holds.children (h : t.Holds q n [b]) : t.children n = starts (n + 1) b.children := by
  have hlt := h.lt
  obtain ⟨pre, post, hn, ht, hpost⟩ := h.singleton
  rw [children_of_nodes ht hn (Nat.ne_of_lt hlt), childrenFrom_blocksNodes (Nat.lt_succ_self n)]
  intro x hx
  rcases hpost x hx with h | h <;> omega

mutual

/-- A node has the nested form of its block. -/
theorem Holds.block_eq {q n : Nat} : ∀ {b : Block}, t.Holds q n [b] → t.block n = b
  | .text s, h => by rw [block, h.content]; rfl
  | .output source line, h => by rw [block, h.content]; rfl
  | .bare, h => by rw [block, h.content]; rfl
  | .tag p tag cs, h => by
    have hbelow : (t.children n).map t.block = cs := by
      rw [h.children]
      exact h.below.map_block
    rw [block, h.content]
    simp only [Block.content, List.attach_map_val, hbelow]

theorem Holds.map_block {q n : Nat} : ∀ {bs : List Block}, t.Holds q n bs → (starts n bs).map t.block = bs
  | [], _ => rfl
  | b :: bs, h => by rw [starts, List.map_cons, h.head.block_eq, h.tail.map_block]

end

/-- The row of blocks below a node: those of the template below the root, and those that a tag holds below the node of
the tag. -/
inductive Row (t : Tree) (bs : List Block) : Nat → List Block → Prop
  | root (h : t.Holds 0 1 bs) : Row t bs 0 bs
  | below {q n : Nat} {p : TagPlugin} {tag : Tag} {cs : List Block} (h : t.Holds q n [.tag p tag cs])
      (hocc : (Block.tag p tag cs).Occurs bs) : Row t bs n cs

theorem Row.holds {row : List Block} (h : t.Row bs n row) : t.Holds n (n + 1) row := by
  cases h with
  | root h => exact h
  | below h hocc => exact h.below

theorem Row.occurs {row : List Block} (h : t.Row bs n row) (hb : b ∈ row) : b.Occurs bs := by
  cases h with
  | root h => exact .here hb
  | below h hocc => exact hocc.child hb

/-- The row below a block of a row, if it holds any. -/
theorem Row.children {front rest : List Block} (h : t.Row bs n (front ++ b :: rest)) :
    b.children = [] ∨ t.Row bs (n + 1 + (Block.contentsAll front).length) b.children := by
  have hocc := h.occurs (List.mem_append_right _ (List.mem_cons_self ..))
  cases b with
  | tag p tag cs => exact .inr (.below h.holds.right.head hocc)
  | text s => exact .inl rfl
  | output source line => exact .inl rfl
  | bare => exact .inl rfl

/-- A number of the run of some blocks lies in the run of one of them. -/
theorem exists_block_of_lt {m : Nat} (hn : n ≤ m) (hm : m < n + (Block.contentsAll bs).length) :
    ∃ front b rest, bs = front ++ b :: rest ∧ n + (Block.contentsAll front).length ≤ m ∧
      m < n + (Block.contentsAll front).length + b.contents.length := by
  induction bs generalizing n with
  | nil => exact absurd hm (Nat.not_lt.2 hn)
  | cons b bs ih =>
    rw [Block.contentsAll, List.length_append] at hm
    by_cases hb : m < n + b.contents.length
    · exact ⟨[], b, bs, rfl, hn, hb⟩
    · obtain ⟨front, c, rest, rfl, hc, hc'⟩ := ih (n := n + b.contents.length) (by omega) (by omega)
      refine ⟨b :: front, c, rest, rfl, ?_, ?_⟩ <;> rw [Block.contentsAll, List.length_append] <;> omega

/-- Each number of the run of a row is that of a block of the row, or of a row further below. -/
theorem Row.exists_row {m : Nat} {row : List Block} (h : t.Row bs n row) (hn : n < m)
    (hm : m < n + 1 + (Block.contentsAll row).length) :
    ∃ q front b rest, t.Row bs q (front ++ b :: rest) ∧ m = q + 1 + (Block.contentsAll front).length := by
  induction hk : (Block.contentsAll row).length using Nat.strong_induction_on generalizing n row with
  | _ k ih =>
    -- the block in whose run the number lies; the rest of the run is that of the row below it
    obtain ⟨front, b, rest, rfl, hle, hlt⟩ := exists_block_of_lt hn hm
    rcases Nat.eq_or_lt_of_le hle with rfl | hle
    · exact ⟨n, front, b, rest, h, rfl⟩
    · have hcount := Block.contentsAll_append front (b :: rest) ▸ hk
      rw [Block.contentsAll, Block.contents_eq, List.length_append, List.length_append, List.length_cons] at hcount
      rw [Block.contents_eq, List.length_cons] at hlt
      rcases h.children with hnil | hbelow
      · rw [hnil, Block.contentsAll, List.length_nil] at hlt
        omega
      · exact ih _ (by omega) hbelow hle (by omega) rfl

end

/-- Each node below the root is that of a block in one of the rows. -/
theorem exists_row {t : Template} {m : Nat} {c : NodeContent} (hm : m ≠ 0) (hc : (ofTemplate t).content? m = some c) :
    ∃ q front b rest, b.content = c ∧ (ofTemplate t).Row t.blocks q (front ++ b :: rest) ∧
      (ofTemplate t).Holds q m [b] ∧ m = q + 1 + (Block.contentsAll front).length := by
  obtain ⟨k, rfl⟩ := Nat.exists_eq_succ_of_ne_zero hm
  have hlt : k < (Block.contentsAll t.blocks).length := by
    rw [content?_succ] at hc
    exact (List.getElem?_eq_some_iff.1 hc).1
  obtain ⟨q, front, b, rest, hrow, hk⟩ := (Row.root (holds_ofTemplate t)).exists_row k.succ_pos (by omega)
  have hb : (ofTemplate t).Holds q k.succ [b] := hk ▸ hrow.holds.right.head
  exact ⟨q, front, b, rest, Option.some.inj (hb.content.symm.trans hc), hrow, hb, hk⟩

end Tree

/-! ## What a tag holds -/

namespace Template

variable {registry : TagRegistry} {name : String} {ts : List Token} {p : TagPlugin} {t : Tag} {cs : List Block}

/-- What a tag that has been read holds: nothing if it is singular, and else what follows it up to the next tag of its
block, with that tag behind it. None follows a final inside tag. -/
inductive TagHolds (registry : TagRegistry) (p : TagPlugin) (t : Tag) : List Block → Prop
  | singular (hr : t.role = .opening) (hp : p.singular = true) : TagHolds registry p t []
  | branch {body : List Block} {rest : List Branch} (hr : t.role = .opening ∧ p.singular = false ∨ t.role = .inside)
      (hbody : ∀ b ∈ body, Stands registry b)
      (hrest : ∀ c ∈ rest, c.tag.role = .inside ∧ c.plugin.family = p.family)
      (hf : rest ≠ [] → t.role = .inside → t.name ∉ p.finalNames) : TagHolds registry p t (body ++ nest rest)

theorem Derived.tagHolds (h : Derived registry name ts (.tag p t cs)) : TagHolds registry p t cs := by
  cases h with
  | construct hus h =>
    generalize hbs : [Block.tag p t cs] = bs at h
    cases h with
    | text h => cases hbs
    | comment h => cases hbs
    | output h hp => cases hbs
    | singular h hp =>
      cases hbs
      exact .singular h.role hp
    | block h hp hb hi hc hq =>
      cases hbs
      have hopening := h.role
      exact .branch (.inl ⟨hopening, hp⟩) hb.stands hi.branch fun _ hr => by rw [hopening] at hr; cases hr
  | inside hus h hb =>
    rename_i us family front rest c
    cases hb
    obtain ⟨hfamily, ⟨vs, ht⟩, ws, hbody⟩ := h.of_mem c (List.mem_append_right _ (List.mem_cons_self ..))
    refine .branch (.inr ht.role) hbody.stands (fun d hd => ?_) fun hne _ => ?_
    · rw [hfamily]
      exact h.branch d (List.mem_append_right _ (List.mem_cons_of_mem _ hd))
    · -- the last branch was only taken in as none of those before it is final
      obtain ⟨before, d, rfl⟩ := (List.eq_nil_or_concat' rest).resolve_left hne
      rw [← List.cons_append, ← List.append_assoc] at h
      obtain ⟨-, -, -, -, -, hf, -⟩ := h.of_concat
      exact hf c (List.mem_append_right _ (List.mem_cons_self ..))

/-- An inside tag is the last block that a tag of its family holds, and that tag is not a final one. -/
theorem TagHolds.of_inside {q : TagPlugin} {u : Tag} {front rest ds : List Block}
    (h : TagHolds registry p t (front ++ .tag q u ds :: rest)) (hu : u.role = .inside) :
    rest = [] ∧ q.family = p.family ∧ (t.role = .opening ∧ p.singular = false ∨ t.role = .inside) ∧
      (t.role = .inside → t.name ∉ p.finalNames) := by
  generalize hcs : front ++ Block.tag q u ds :: rest = cs at h
  cases h with
  | singular hr hp => simp at hcs
  | branch hr hbody hrest hf =>
    rename_i body branches
    have hnot : Block.tag q u ds ∉ body := fun hb => by
      have hstands := (hbody _ hb).1
      rw [hu] at hstands
      cases hstands
    cases branches with
    | nil =>
      rw [nest_nil, List.append_nil] at hcs
      exact absurd (hcs ▸ List.mem_append_right _ (List.mem_cons_self ..)) hnot
    | cons c branches =>
      rw [nest_cons] at hcs
      rcases List.eq_nil_or_concat' rest with rfl | ⟨rest, b, rfl⟩
      · obtain ⟨-, hlast⟩ := List.append_inj' hcs rfl
        cases hlast
        exact ⟨rfl, (hrest c (List.mem_cons_self ..)).2, hr, hf (List.cons_ne_nil _ _)⟩
      · rw [← List.cons_append, ← List.append_assoc] at hcs
        obtain ⟨hfront, -⟩ := List.append_inj' hcs rfl
        exact absurd (hfront ▸ List.mem_append_right _ (List.mem_cons_self ..)) hnot

end Template

/-! ## The shape of a tree -/

namespace Tree

/-- A node that is an inside tag. -/
def IsInside (t : Tree) (n : Nat) : Prop :=
  ∃ p tag, t.content? n = some (.tag p tag) ∧ tag.role = .inside

/-- The way up from a node, through the inside tags above it, ends at the node `n`. -/
inductive LeadsTo (t : Tree) (n : Nat) : Nat → Prop
  | stop {m : Nat} (h : t.parent? m = some n) (hn : ¬ t.IsInside n) : LeadsTo t n m
  | climb {m k : Nat} (h : t.parent? m = some k) (hk : t.IsInside k) (hn : LeadsTo t n k) : LeadsTo t n m

/-- The shape that families of tags rely on. -/
structure Shaped (t : Tree) : Prop where
  no_closing : ∀ {n : Nat} {p : TagPlugin} {tag : Tag}, t.content? n = some (.tag p tag) → tag.role ≠ .closing
  /-- An inside tag is the last child of an opening or an inside tag of its family. -/
  inside : ∀ {n : Nat} {p : TagPlugin} {tag : Tag}, t.content? n = some (.tag p tag) → tag.role = .inside →
    ∃ q above upper, t.parent? n = some q ∧ (t.children q).getLast? = some n ∧
      t.content? q = some (.tag above upper) ∧ (upper.role = .opening ∨ upper.role = .inside) ∧
      above.family = p.family
  unique_inside : ∀ {q m n : Nat}, m ∈ t.children q → n ∈ t.children q → t.IsInside m → t.IsInside n →
    m = n
  /-- No inside tag follows a final one. -/
  not_after_final : ∀ {q n : Nat} {p : TagPlugin} {tag : Tag}, n ∈ t.children q → t.IsInside n →
    t.content? q = some (.tag p tag) → tag.role = .inside → tag.name ∉ p.finalNames
  text_leaf : ∀ {n : Nat} {s : String}, t.content? n = some (.text s) → t.children n = []
  output_leaf : ∀ {n line : Nat} {source : String}, t.content? n = some (.output source line) → t.children n = []
  singular_leaf : ∀ {n : Nat} {p : TagPlugin} {tag : Tag}, t.content? n = some (.tag p tag) →
    p.isSingular tag = true → t.children n = []
  /-- Each inside tag belongs to a block, which an opening tag of its family has opened. -/
  opened : ∀ {n : Nat} {p : TagPlugin} {tag : Tag}, t.content? n = some (.tag p tag) → tag.role = .inside →
    ∃ m above upper, t.LeadsTo m n ∧ t.content? m = some (.tag above upper) ∧ upper.role = .opening ∧
      above.isSingular upper = false ∧ above.family = p.family

theorem getLast?_starts_concat (n : Nat) (bs : List Block) (b : Block) :
    (starts n (bs ++ [b])).getLast? = some (n + (Block.contentsAll bs).length) := by
  rw [starts_append, starts, starts, List.getLast?_concat]

section

variable {registry : TagRegistry} {name : String} {ts : List Token} {t : Template} {n : Nat} {p : TagPlugin} {tag : Tag}

/-- The node of a tag stands in a row, and the tag has a derivation. -/
theorem exists_tag_row (hn : (ofTemplate t).content? n = some (.tag p tag)) :
    ∃ q front cs rest, (ofTemplate t).Row t.blocks q (front ++ .tag p tag cs :: rest) ∧
      (ofTemplate t).Holds q n [.tag p tag cs] ∧ n = q + 1 + (Block.contentsAll front).length := by
  have hzero : n ≠ 0 := fun h => by rw [h] at hn; cases hn
  obtain ⟨q, front, b, rest, hb, hrow, hholds, hk⟩ := exists_row hzero hn
  rw [Block.eq_tag_of_content hb] at hrow hholds
  exact ⟨q, front, _, rest, hrow, hholds, hk⟩

theorem tagHolds_of_content (hc : Content registry name ts t.blocks)
    (hn : (ofTemplate t).content? n = some (.tag p tag)) :
    ∃ cs, TagHolds registry p tag cs ∧ (ofTemplate t).children n = starts (n + 1) cs := by
  obtain ⟨q, front, cs, rest, hrow, hholds, -⟩ := exists_tag_row hn
  have hocc := hrow.occurs (List.mem_append_right _ (List.mem_cons_self ..))
  exact ⟨cs, (hc.derived hocc).tagHolds, hholds.children⟩

/-- The node above that of an inside tag. -/
theorem exists_above (hc : Content registry name ts t.blocks) (hn : (ofTemplate t).content? n = some (.tag p tag))
    (hr : tag.role = .inside) : ∃ q above upper, q < n ∧ (ofTemplate t).parent? n = some q ∧
      ((ofTemplate t).children q).getLast? = some n ∧ (ofTemplate t).content? q = some (.tag above upper) ∧
      (upper.role = .opening ∧ above.singular = false ∨ upper.role = .inside) ∧ p.family = above.family ∧
      (upper.role = .inside → upper.name ∉ above.finalNames) := by
  obtain ⟨q, front, cs, rest, hrow, hholds, hk⟩ := exists_tag_row hn
  generalize hds : front ++ Block.tag p tag cs :: rest = ds at hrow
  cases hrow with
  | root h =>
    -- an inside tag does not stand in the content of a template
    have hstands := (hc.stands (.tag p tag cs) (hds ▸ List.mem_append_right _ (List.mem_cons_self ..))).1
    rw [hr] at hstands
    cases hstands
  | below h hocc =>
    rename_i r above upper
    subst hds
    obtain ⟨rfl, hfamily, hrole, hfinal⟩ := (hc.derived hocc).tagHolds.of_inside hr
    refine ⟨q, above, upper, hholds.lt, hholds.parent, ?_, h.content, hrole, hfamily, hfinal⟩
    rw [h.children, hk]
    exact getLast?_starts_concat ..

theorem children_of_leaf {c : NodeContent} (hn : (ofTemplate t).content? n = some c) (hroot : c ≠ .root)
    (hc : ∀ b : Block, b.content = c → b.children = []) : (ofTemplate t).children n = [] := by
  have hzero : n ≠ 0 := fun h => by
    rw [h] at hn
    exact hroot (Option.some.inj hn).symm
  obtain ⟨q, front, b, rest, hb, -, hholds, -⟩ := exists_row hzero hn
  rw [hholds.children, hc b hb]
  rfl

theorem exists_opening (hc : Content registry name ts t.blocks) (hn : (ofTemplate t).content? n = some (.tag p tag))
    (hr : tag.role = .inside) : ∃ m above upper, (ofTemplate t).LeadsTo m n ∧
      (ofTemplate t).content? m = some (.tag above upper) ∧ upper.role = .opening ∧
      above.isSingular upper = false ∧ above.family = p.family := by
  induction n using Nat.strong_induction_on generalizing p tag with
  | _ n ih =>
    obtain ⟨q, above, upper, hlt, hparent, -, hq, hrole, hfamily, -⟩ := exists_above hc hn hr
    rcases hrole with ⟨hrole, hsingular⟩ | hrole
    · have hstop : ¬ (ofTemplate t).IsInside q := by
        rintro ⟨above', upper', hq', hrole'⟩
        cases Option.some.inj (hq.symm.trans hq')
        rw [hrole] at hrole'
        cases hrole'
      refine ⟨q, above, upper, .stop hparent hstop, hq, hrole, ?_, hfamily.symm⟩
      rw [TagPlugin.isSingular, hsingular, Bool.and_false]
    · obtain ⟨m, top, first, hleads, hm, hopening, hsingular, hsame⟩ := ih q hlt hq hrole
      exact ⟨m, top, first, .climb hparent ⟨above, upper, hq, hrole⟩ hleads, hm, hopening, hsingular,
        hsame.trans hfamily.symm⟩

end

theorem shaped_of_content {registry : TagRegistry} {name : String} {ts : List Token} {t : Template}
    (hc : Content registry name ts t.blocks) : (ofTemplate t).Shaped where
  no_closing hn hclosing := by
    obtain ⟨cs, htag, -⟩ := tagHolds_of_content hc hn
    cases htag with
    | singular hr hp => rw [hr] at hclosing; cases hclosing
    | branch hr hbody hrest hf => rcases hr with ⟨hr, -⟩ | hr <;> rw [hr] at hclosing <;> cases hclosing
  inside hn hr := by
    obtain ⟨q, above, upper, -, hparent, hlast, hq, hrole, hfamily, -⟩ := exists_above hc hn hr
    exact ⟨q, above, upper, hparent, hlast, hq, hrole.imp_left And.left, hfamily.symm⟩
  unique_inside := by
    rintro q m n hm hn ⟨p, tag, hpm, hrm⟩ ⟨p', tag', hpn, hrn⟩
    obtain ⟨q₁, -, -, -, hparent₁, hlast₁, -⟩ := exists_above hc hpm hrm
    obtain ⟨q₂, -, -, -, hparent₂, hlast₂, -⟩ := exists_above hc hpn hrn
    cases Option.some.inj ((mem_children.1 hm).2.2.symm.trans hparent₁)
    cases Option.some.inj ((mem_children.1 hn).2.2.symm.trans hparent₂)
    exact Option.some.inj (hlast₁.symm.trans hlast₂)
  not_after_final := by
    rintro q n p tag hmem ⟨p', tag', hn, hr⟩ hq hrole
    obtain ⟨q', above, upper, -, hparent, -, hq', -, -, hfinal⟩ := exists_above hc hn hr
    cases Option.some.inj ((mem_children.1 hmem).2.2.symm.trans hparent)
    cases Option.some.inj (hq.symm.trans hq')
    exact hfinal hrole
  text_leaf hn := children_of_leaf hn nofun fun b hb => by cases b <;> cases hb; rfl
  output_leaf hn := children_of_leaf hn nofun fun b hb => by cases b <;> cases hb; rfl
  singular_leaf {n p tag} hn hs := by
    rw [TagPlugin.isSingular, Bool.and_eq_true, beq_iff_eq] at hs
    obtain ⟨cs, htag, hchildren⟩ := tagHolds_of_content hc hn
    cases htag with
    | singular hr hp => exact hchildren
    | branch hr hbody hrest hf =>
      rcases hr with ⟨-, hr⟩ | hr
      · rw [hr] at hs; cases hs.2
      · rw [hr] at hs; cases hs.1
  opened hn hr := exists_opening hc hn hr

/-- Each template that has been read, whatever families of tags it was read with, has a tree of this shape. -/
theorem shaped_of_read {registry : TagRegistry} {text name : String} {t : Template}
    (h : Template.read registry text name = .ok t) : (ofTemplate t).Shaped :=
  shaped_of_content (read_eq_ok.1 h).2

/-- The text `{% if a %}x{% elif b %}{% if c %}{% else %}{% endif %}{% else %}y{% endif %}`. -/
def nestedText : String :=
  "\x7b% if a %\x7dx\x7b% elif b %\x7d\x7b% if c %\x7d\x7b% else %\x7d\x7b% endif %\x7d" ++
    "\x7b% else %\x7dy\x7b% endif %\x7d"

theorem shaped_of_read_nested : ∃ t, Template.read (TagRegistry.addAll {} [IfTag.plugin]) nestedText "t" = .ok t ∧
    (ofTemplate t).children 1 = [2, 3] ∧ (ofTemplate t).children 3 = [4, 6] ∧ (ofTemplate t).Shaped := by
  let tag (word : String) (role : TagRole) (source : String) (args : TagArgs) : Tag :=
    ⟨word, role, source, args, 1, "t"⟩
  let last : Block := .tag IfTag.plugin (tag "else" .inside "" .none) [.text "y"]
  let inner : Block := .tag IfTag.plugin (tag "if" .opening "c" (.expr (.name "c")))
    [.tag IfTag.plugin (tag "else" .inside "" .none) []]
  let second : Block := .tag IfTag.plugin (tag "elif" .inside "b" (.expr (.name "b"))) [inner, last]
  let block : Block := .tag IfTag.plugin (tag "if" .opening "a" (.expr (.name "a"))) [.text "x", second]
  have hread : Template.read (TagRegistry.addAll {} [IfTag.plugin]) nestedText "t" = .ok ⟨"t", [block]⟩ := by
    with_unfolding_all rfl
  exact ⟨_, hread, rfl, rfl, shaped_of_read hread⟩

end Tree

end TemplateEngine

/-
Trees that are built by hand. Whatever calls of `append` are made one after the other, the arena holds the tree of the
parents that the calls name: each list of children is the one that the recorded parents give, so a child comes after
its parent, and a walk through the lists, which keeps no record of where it has been, ends and visits each node once.
-/
import Mathlib.Data.Finset.Card
import Mathlib.Data.Finset.Range
import Mathlib.Data.List.Count
import Mathlib.Data.List.Nodup
import Mathlib.Logic.Relation
import Mathlib.Order.Monotone.Basic
import TemplateEngine.Proofs.Template.Nodes
import TemplateEngine.Template.Arena

namespace TemplateEngine

/-! ## Walks of a tree -/

namespace Tree

variable {t : Tree} {h p c : Nat}

/-- The children of a node come in the order in which they were added. -/
theorem pairwise_children (t : Tree) (h : Nat) : (t.children h).Pairwise (· < ·) := by
  have hnumbers : (t.nodes.zipIdx 1).Pairwise fun x y => x.2 < y.2 := by
    rw [← List.pairwise_map (f := Prod.snd), List.zipIdx_map_snd]
    exact List.pairwise_lt_range'
  refine List.pairwise_filterMap.2 (hnumbers.imp fun {x y} hlt m hm n hn => ?_)
  split at hm
  · split at hn
    · cases hm
      cases hn
      exact hlt
    · cases hn
  · cases hm

/-- The node is the other one or stands somewhere below it. -/
def Below (t : Tree) : Nat → Nat → Prop :=
  Relation.ReflTransGen fun p c => c ∈ t.children p

theorem Below.le (h : t.Below p c) : p ≤ c := by
  induction h with
  | refl => exact Nat.le_refl _
  | tail _ hc ih => exact Nat.le_trans ih (Nat.le_of_lt (lt_of_mem_children hc).1)

/-- What stands below two children of one node stands below the same child: a node has one parent. -/
theorem eq_of_below {d x : Nat} (hc : c ∈ t.children p) (hd : d ∈ t.children p) (hcx : t.Below c x)
    (hdx : t.Below d x) : c = d := by
  have hup : Relator.RightUnique (Function.swap fun p c => c ∈ t.children p) := fun x y z hy hz =>
    Option.some.inj ((mem_children.1 hy).2.2.symm.trans (mem_children.1 hz).2.2)
  -- a child of the node that stands below another child of it would come before the node
  have hside {c d : Nat} (hc : c ∈ t.children p) (hd : d ∈ t.children p) (h : t.Below c d) : c = d := by
    rcases Relation.ReflTransGen.cases_tail h with rfl | ⟨q, hq, hdq⟩
    · rfl
    · cases hup hdq hd
      have := (lt_of_mem_children hc).1
      have := Below.le hq
      omega
  rcases Relation.ReflTransGen.total_of_right_unique hup (Relation.reflTransGen_swap.2 hcx)
    (Relation.reflTransGen_swap.2 hdx) with h | h
  · exact (hside hd hc (Relation.reflTransGen_swap.1 h)).symm
  · exact hside hc hd (Relation.reflTransGen_swap.1 h)

theorem mem_walk : c ∈ t.walk h ↔ t.Below h c := by
  constructor
  · induction h using walk.induct (t := t) with
    | case1 h ih =>
      rw [walk_eq, List.mem_cons, List.mem_flatMap]
      rintro (rfl | ⟨d, hd, hc⟩)
      · exact .refl
      · exact .head hd (ih d hd hc)
  · intro hbelow
    induction hbelow using Relation.ReflTransGen.head_induction_on with
    | refl =>
      rw [walk_eq]
      exact List.mem_cons_self ..
    | head hd _ ih =>
      rw [walk_eq]
      exact List.mem_cons_of_mem _ (List.mem_flatMap.2 ⟨_, hd, ih⟩)

/-- No node is visited twice. -/
theorem nodup_walk (t : Tree) (h : Nat) : (t.walk h).Nodup := by
  induction h using walk.induct (t := t) with
  | case1 h ih =>
    rw [walk_eq, List.nodup_cons, List.mem_flatMap, List.nodup_flatMap]
    refine ⟨?_, ih, (t.pairwise_children h).imp_of_mem fun {c d} hc hd hlt x hx hy => ?_⟩
    · rintro ⟨c, hc, hh⟩
      exact absurd (Below.le (mem_walk.1 hh)) (Nat.not_le_of_lt (lt_of_mem_children hc).1)
    · exact Nat.ne_of_lt hlt (eq_of_below hc hd (mem_walk.1 hx) (mem_walk.1 hy))

/-- Each node that is visited comes before its children, and these come in order. -/
theorem sublist_walk (hp : p ∈ t.walk h) : (p :: t.children p).Sublist (t.walk h) := by
  induction h using walk.induct (t := t) with
  | case1 h ih =>
    rw [walk_eq] at hp ⊢
    rcases List.mem_cons.1 hp with rfl | hp
    · refine List.Sublist.cons_cons _ ?_
      have hfirst (c : Nat) : [c].Sublist (t.walk c) := List.singleton_sublist.2 (mem_walk.2 .refl)
      induction t.children p with
      | nil => exact .slnil
      | cons c cs ih => exact (hfirst c).append ih
    · obtain ⟨c, hc, hp⟩ := List.mem_flatMap.1 hp
      have hinner : (t.walk c).Sublist ((t.children h).flatMap t.walk) :=
        List.sublist_flatten_of_mem (List.mem_map_of_mem hc)
      exact ((ih c hc hp).trans hinner).cons _

/-- In a tree whose parents come first all nodes stand below the root. -/
theorem below_root (ht : ∀ c, 0 < c → c < t.size → ∃ p, t.parent? c = some p ∧ p < c) (hc : c < t.size) :
    t.Below 0 c := by
  induction c using Nat.strong_induction_on with
  | h c ih =>
    rcases Nat.eq_zero_or_pos c with rfl | hpos
    · exact .refl
    · obtain ⟨p, hp, hlt⟩ := ht c hpos hc
      exact .tail (ih p hlt (Nat.lt_trans hlt hc)) (mem_children.2 ⟨hc, hlt, hp⟩)

end Tree

/-! ## The tree of an arena -/

namespace Arena

variable {a : Arena} {t : Tree} {h p : Nat} {content : NodeContent}

/-- The arena holds the tree: handles count from zero, each node but the root has the parent and the content of its
node of the tree, which comes before it, and the lists of children are those of the tree. -/
structure Holds (a : Arena) (t : Tree) : Prop where
  name : a.name = t.name
  handles : a.nodes.map (·.handle) = (List.range t.size).map some
  nodes : a.nodes.map (fun n => (n.parent, n.content)) =
    (none, .root) :: t.nodes.map fun n => (some n.parent, n.content)
  before : ∀ c, 0 < c → c < t.size → ∃ p, t.parent? c = some p ∧ p < c
  children : ∀ h, a.children h = t.children h

theorem holds_start (name : String) : (start name).Holds ⟨name, []⟩ where
  name := rfl
  handles := rfl
  nodes := rfl
  before c hpos hc := absurd hc (Nat.not_lt_of_le hpos)
  children h := by cases h <;> rfl

theorem Holds.size_eq (h : a.Holds t) : a.size = t.size := by
  have := congrArg List.length h.handles
  rwa [List.length_map, List.length_map, List.length_range] at this

theorem Holds.toTree (h : a.Holds t) : a.toTree = t := by
  have hnodes := congrArg (fun l => l.tail.map fun x => (⟨x.1.getD 0, x.2⟩ : TreeNode)) h.nodes
  simp only [← List.map_tail, List.map_map, List.tail_cons] at hnodes
  unfold Arena.toTree
  rw [h.name]
  exact congrArg (Tree.mk t.name) (hnodes.trans (List.map_id _))

/-- A new node as it is when it has been added below a parent. -/
def child (a : Arena) (p : Nat) (content : NodeContent) : ArenaNode :=
  { content := content, handle := some a.size, parent := some p }

/-- A new node below one that exists is added, and answered. -/
theorem append_new (hp : p < a.size) : a.append p (.new content) =
    (.ok a.size, ⟨a.name, (a.nodes ++ [a.child p content]).modify p (.addChild a.size)⟩) := by
  unfold append ArenaNode.new
  dsimp only
  rw [if_pos]
  · rfl
  · rw [List.length_append]
    exact Nat.lt_add_right _ hp

/-- What a new child leaves as it is in its parent, it leaves as it is in all nodes. -/
theorem map_nodes_append {f : ArenaNode → α} (hf : ∀ h n, f (.addChild h n) = f n) (hp : p < a.size) :
    (a.append p (.new content)).2.nodes.map f = a.nodes.map f ++ [f (a.child p content)] := by
  have hmodify (l : List ArenaNode) : (l.modify p (.addChild a.size)).map f = l.map f := by
    refine List.ext_getElem? fun i => ?_
    rw [List.getElem?_map, List.getElem?_map, List.getElem?_modify, Option.map_eq_map, Option.map_map]
    refine congrArg (Option.map · l[i]?) (funext fun n => ?_)
    by_cases hi : p = i
    · simp [hi, hf]
    · simp [hi]
  rw [append_new hp, hmodify, List.map_append, List.map_singleton]

/-- Only the parent of a new node gets a child. -/
theorem children_append (hp : p < a.size) (h : Nat) :
    (a.append p (.new content)).2.children h = a.children h ++ if p = h then [a.size] else [] := by
  rw [append_new hp]
  unfold children
  dsimp only
  by_cases hph : p = h
  · subst hph
    rw [List.getElem?_modify_eq, List.getElem?_append_left hp, List.getElem?_eq_getElem hp, if_pos rfl]
    rfl
  · rw [List.getElem?_modify_ne _ _ hph, if_neg hph, List.append_nil]
    rcases Nat.lt_or_ge h a.nodes.length with hlt | hge
    · rw [List.getElem?_append_left hlt]
    · rw [List.getElem?_append_right hge, List.getElem?_eq_none hge]
      rcases h - a.nodes.length with - | n
      · rfl
      · rfl

end Arena

/-! ## Appending to a tree -/

namespace Tree

variable {t : Tree} {content : NodeContent}

theorem parent?_concat (t : Tree) (n : TreeNode) (c : Nat) :
    (⟨t.name, t.nodes ++ [n]⟩ : Tree).parent? c = if c = t.size then some n.parent else t.parent? c := by
  unfold parent? node? size
  cases c with
  | zero => rfl
  | succ c =>
    dsimp only
    rcases Nat.lt_trichotomy c t.nodes.length with hlt | rfl | hgt
    · rw [List.getElem?_append_left hlt, if_neg (by omega)]
    · rw [List.getElem?_concat_length, if_pos rfl]
      rfl
    · rw [List.getElem?_eq_none (by rw [List.length_append, List.length_singleton]; exact hgt),
        List.getElem?_eq_none (Nat.le_of_lt hgt), if_neg (by omega)]

theorem children_concat (t : Tree) (n : TreeNode) (h : Nat) :
    (⟨t.name, t.nodes ++ [n]⟩ : Tree).children h =
      t.children h ++ if h < t.size ∧ n.parent = h then [t.size] else [] := by
  unfold children
  rw [List.zipIdx_append, List.filterMap_append]
  refine congrArg _ ?_
  rw [Nat.add_comm]
  by_cases hh : h < t.size ∧ n.parent = h
  · rw [if_pos hh]
    exact List.filterMap_cons_some (if_pos hh)
  · rw [if_neg hh]
    exact List.filterMap_cons_none (if_neg hh)

end Tree

namespace Arena

variable {a : Arena} {t : Tree} {p : Nat} {content : NodeContent}

/-- A node added to the arena is one added to the tree. -/
theorem Holds.append (h : a.Holds t) (hp : p < a.size) :
    (a.append p (.new content)).2.Holds ⟨t.name, t.nodes ++ [⟨p, content⟩]⟩ := by
  have hsize : (⟨t.name, t.nodes ++ [⟨p, content⟩]⟩ : Tree).size = t.size + 1 := by
    unfold Tree.size
    rw [List.length_append, List.length_singleton]
  refine ⟨?_, ?_, ?_, fun c hpos hc => ?_, fun q => ?_⟩
  · rw [append_new hp]
    exact h.name
  · rw [map_nodes_append (fun _ _ => rfl) hp, h.handles, hsize, List.range_succ, List.map_append, ← h.size_eq]
    rfl
  · rw [map_nodes_append (fun _ _ => rfl) hp, h.nodes, List.map_append]
    rfl
  · rw [Tree.parent?_concat]
    rw [hsize] at hc
    rcases Nat.lt_succ_iff_lt_or_eq.1 hc with hlt | rfl
    · rw [if_neg (Nat.ne_of_lt hlt)]
      exact h.before c hpos hlt
    · rw [if_pos rfl]
      exact ⟨p, rfl, h.size_eq ▸ hp⟩
  · rw [children_append hp, h.children, Tree.children_concat, h.size_eq]
    rw [h.size_eq] at hp
    refine congrArg _ (if_congr ⟨fun hpq => ⟨hpq ▸ hp, hpq⟩, And.right⟩ rfl rfl)

/-- A node that has a handle is refused, and nothing changes. -/
theorem append_owned {n : ArenaNode} {h : Nat} (hn : n.handle = some h) (p : Nat) :
    a.append p n = (.error (.owned h), a) := by
  unfold append
  rw [hn]

/-! ## Calls one after the other -/

/-- The call passes a node that belongs to a tree, or a new one and a parent that exists. -/
def Call.Proper (a : Arena) (c : Call) : Prop :=
  c.node.handle = none → c.parent < a.size ∧ c.node = .new c.node.content

/-- Each of the calls is proper when its turn comes. -/
def Proper (a : Arena) : List Call → Prop
  | [] => True
  | c :: cs => c.Proper a ∧ (a.call c).Proper cs

/-- The nodes that the calls add to a tree. -/
def added (calls : List Call) : List TreeNode :=
  (calls.filter (·.node.handle.isNone)).map fun c => ⟨c.parent, c.node.content⟩

theorem Holds.calls (h : a.Holds t) {calls : List Call} (hc : a.Proper calls) :
    (calls.foldl call a).Holds ⟨t.name, t.nodes ++ added calls⟩ := by
  induction calls generalizing a t with
  | nil =>
    rw [added, List.filter_nil, List.map_nil, List.append_nil]
    exact h
  | cons c cs ih =>
    cases hn : c.node.handle with
    | some n =>
      have hsame : a.call c = a := congrArg Prod.snd (append_owned hn c.parent)
      have hadded : added (c :: cs) = added cs := by simp [added, hn]
      rw [List.foldl_cons, hadded, hsame]
      exact ih h (hsame ▸ hc.2)
    | none =>
      obtain ⟨hp, hnew⟩ := hc.1 hn
      have hadded : added (c :: cs) = ⟨c.parent, c.node.content⟩ :: added cs := by simp [added, hn]
      have hstep : (a.call c).Holds ⟨t.name, t.nodes ++ [⟨c.parent, c.node.content⟩]⟩ := by
        unfold call
        rw [hnew]
        exact h.append hp
      have hrest := ih hstep hc.2
      rw [List.append_assoc, List.singleton_append] at hrest
      rw [List.foldl_cons, hadded]
      exact hrest

/-! ## Walks of an arena -/

theorem isSome_mapM {β γ : Type} {f : β → Option γ} {xs : List β} :
    (xs.mapM f).isSome ↔ ∀ x ∈ xs, (f x).isSome := by
  induction xs with
  | nil => exact ⟨fun _ _ hx => (List.not_mem_nil hx).elim, fun _ => rfl⟩
  | cons x xs ih =>
    rw [List.mapM_cons, List.forall_mem_cons, ← ih]
    cases f x with
    | none => simp
    | some y => cases xs.mapM f <;> simp

theorem mapM_congr {β γ : Type} {f g : β → Option γ} {xs : List β} (h : ∀ x ∈ xs, f x = g x) :
    xs.mapM f = xs.mapM g := by
  induction xs with
  | nil => rfl
  | cons x xs ih =>
    rw [List.forall_mem_cons] at h
    rw [List.mapM_cons, List.mapM_cons, h.1, ih h.2]

/-- A node has an end to its walk when it exists and each of its children has one on fewer levels. -/
theorem isSome_walkTo_succ {d : Nat} : (a.walkTo (d + 1) h).isSome ↔
    ∃ n, a.nodes[h]? = some n ∧ ∀ c ∈ n.children, (a.walkTo d c).isSome := by
  rw [walkTo]
  cases a.nodes[h]? with
  | none => simp
  | some n =>
    simp only [Option.some.injEq, exists_eq_left', ← isSome_mapM]
    cases hbelow : n.children.mapM (a.walkTo d) <;> simp [hbelow]

/-- A walk that ends is the same whatever more levels there may be. -/
theorem walkTo_of_le {d e : Nat} (hde : d ≤ e) (hd : (a.walkTo d h).isSome) : a.walkTo e h = a.walkTo d h := by
  induction d generalizing e h with
  | zero => cases hd
  | succ d ih =>
    obtain ⟨e, rfl⟩ := Nat.exists_eq_succ_of_ne_zero (Nat.ne_of_gt (Nat.lt_of_lt_of_le (Nat.succ_pos d) hde))
    obtain ⟨n, hn, hchildren⟩ := isSome_walkTo_succ.1 hd
    have hbelow : n.children.mapM (a.walkTo e) = n.children.mapM (a.walkTo d) :=
      mapM_congr fun c hc => ih (Nat.le_of_succ_le_succ hde) (hchildren c hc)
    rw [walkTo, walkTo, hn, Option.bind_eq_bind, Option.bind_some, Option.bind_some, hbelow]

/-- The nodes that have an end to their walk within so many levels. -/
def ended (a : Arena) (d : Nat) : Finset Nat :=
  (Finset.range a.size).filter fun h => (a.walkTo d h).isSome

theorem mem_ended {d : Nat} : h ∈ a.ended d ↔ (a.walkTo d h).isSome := by
  rw [ended, Finset.mem_filter, Finset.mem_range]
  refine ⟨And.right, fun hd => ⟨?_, hd⟩⟩
  cases d with
  | zero => cases hd
  | succ d =>
    obtain ⟨n, hn, -⟩ := isSome_walkTo_succ.1 hd
    exact (List.getElem?_eq_some_iff.1 hn).1

theorem ended_subset {d e : Nat} (hde : d ≤ e) : a.ended d ⊆ a.ended e := by
  intro h hh
  rw [mem_ended] at hh ⊢
  rwa [walkTo_of_le hde hh]

/-- One more level either gives a node an end to its walk, or no further one ever does. -/
theorem ended_stable {d : Nat} (hd : a.ended d = a.ended (d + 1)) : a.ended (d + 1) = a.ended (d + 2) := by
  ext h
  rw [mem_ended, mem_ended, isSome_walkTo_succ, isSome_walkTo_succ]
  simp only [← mem_ended, hd]

/-- As many levels as there are nodes lose no walk: `walk` has a result just when the walk ends at all. -/
theorem walk_eq_some_iff {hs : List Nat} : a.walk h = some hs ↔ ∃ d, a.walkTo d h = some hs := by
  refine ⟨fun hw => ⟨a.size, hw⟩, fun ⟨d, hd⟩ => ?_⟩
  have hcard : (a.ended (max a.size d)).card = (a.ended a.size).card := by
    refine Nat.stabilises_of_monotone (f := fun d => (a.ended d).card) (fun d e hde => ?_) (fun d => ?_)
      (fun d hd => ?_) (Nat.le_max_left _ _)
    · exact Finset.card_le_card (ended_subset hde)
    · exact (Finset.card_filter_le _ _).trans_eq (Finset.card_range _)
    · exact congrArg Finset.card
        (ended_stable (Finset.eq_of_subset_of_card_le (ended_subset (Nat.le_succ d)) hd.ge))
  have hended : a.ended a.size = a.ended (max a.size d) :=
    Finset.eq_of_subset_of_card_le (ended_subset (Nat.le_max_left _ _)) hcard.le
  have hsome : h ∈ a.ended a.size := by
    rw [hended]
    exact ended_subset (Nat.le_max_right _ _) (mem_ended.2 (Option.isSome_iff_exists.2 ⟨hs, hd⟩))
  -- both depths agree with the greater one
  rw [walk, ← walkTo_of_le (Nat.le_max_left a.size d) (mem_ended.1 hsome),
    walkTo_of_le (Nat.le_max_right a.size d) (Option.isSome_iff_exists.2 ⟨hs, hd⟩), hd]

/-- Children come after their parents, so a node has no more levels below it than there are nodes after it. -/
theorem Holds.walkTo (h : a.Holds t) {n d : Nat} (hn : n < t.size) (hd : t.size ≤ d + n) :
    a.walkTo d n = some (t.walk n) := by
  induction n using Tree.walk.induct (t := t) generalizing d with
  | case1 n ih =>
    obtain ⟨d, rfl⟩ : ∃ e, d = e + 1 := ⟨d - 1, by omega⟩
    obtain ⟨node, hnode⟩ : ∃ node, a.nodes[n]? = some node :=
      ⟨_, List.getElem?_eq_getElem (Nat.lt_of_lt_of_eq hn h.size_eq.symm)⟩
    have hchildren : node.children = t.children n := by
      rw [← h.children, Arena.children, hnode]
      rfl
    have hbelow : (t.children n).mapM (a.walkTo d) = some ((t.children n).map t.walk) := by
      rw [mapM_congr (g := fun c => pure (t.walk c)) fun c hc => ?_, List.mapM_pure]
      · rfl
      · have hlt := Tree.lt_of_mem_children hc
        exact ih c hc hlt.2 (by omega)
    rw [Arena.walkTo, hnode, Option.bind_eq_bind, Option.bind_some, hchildren, hbelow, Tree.walk_eq]
    rfl

/-- A walk through the lists of children ends, and is the walk of the tree. -/
theorem Holds.walk (h : a.Holds t) {n : Nat} (hn : n < t.size) : a.walk n = some (t.walk n) :=
  h.walkTo hn (h.size_eq ▸ Nat.le_add_right _ _)

/-! ## Arenas that are built from calls -/

/-- The node is the other one or stands somewhere below it, by the recorded parents. -/
def Below (a : Arena) : Nat → Nat → Prop :=
  Relation.ReflTransGen fun p c => a.parent? c = some p

/-- The nodes of an arena are arranged as a tree. -/
structure Arranged (a : Arena) : Prop where
  /-- The handles count from zero. -/
  handles : a.nodes.map (·.handle) = (List.range a.size).map some
  /-- A new node below an existing one gets the next handle. -/
  next : ∀ p content, p < a.size → (a.append p (.new content)).1 = .ok a.size
  /-- A node that has been added is refused, and nothing changes. -/
  owned : ∀ n ∈ a.nodes, ∃ h, n.handle = some h ∧ ∀ p, a.append p n = (.error (.owned h), a)
  root : a.parent? 0 = none
  /-- Each node but the root occurs once in the children of its parent, and in no other list. -/
  placed : ∀ c, 0 < c → c < a.size → ∃ p, a.parent? c = some p ∧ ∀ q, (a.children q).count c = if q = p then 1 else 0
  /-- Children come in the order of their handles, after the node. -/
  ordered : ∀ p, (a.children p).Pairwise (· < ·) ∧ ∀ c ∈ a.children p, p < c ∧ c < a.size
  /-- A walk ends; it visits what is below the node, each once, a node before its children and these in order. -/
  walked : ∀ h, h < a.size → ∃ hs, a.walk h = some hs ∧ hs.Nodup ∧ (∀ c, c ∈ hs ↔ a.Below h c) ∧
    ∀ p ∈ hs, (p :: a.children p).Sublist hs
  /-- The walk from the root visits every node. -/
  complete : ∃ hs, a.walk 0 = some hs ∧ hs.Perm (List.range a.size)

theorem Holds.parent? (h : a.Holds t) (c : Nat) : a.parent? c = t.parent? c := by
  have hnode : (a.nodes.map fun n => (n.parent, n.content))[c]?.bind (·.1) = t.parent? c := by
    rw [h.nodes]
    unfold Tree.parent? Tree.node?
    cases c with
    | zero => rfl
    | succ c =>
      dsimp only
      rw [List.getElem?_cons_succ, List.getElem?_map]
      cases t.nodes[c]? <;> rfl
  rw [← hnode, List.getElem?_map, Arena.parent?]
  cases a.nodes[c]? <;> rfl

theorem Holds.mem_children (h : a.Holds t) {c : Nat} : c ∈ a.children p ↔ a.parent? c = some p := by
  rw [h.children, Tree.mem_children, h.parent?]
  refine ⟨fun hc => hc.2.2, fun hc => ?_⟩
  obtain ⟨hpos, n, hn, -⟩ := Tree.parent?_eq_some.1 hc
  have hlt : c < t.size := by
    have := (List.getElem?_eq_some_iff.1 hn).1
    unfold Tree.size
    omega
  obtain ⟨q, hq, hqc⟩ := h.before c hpos hlt
  exact ⟨hlt, Option.some.inj (hq.symm.trans hc) ▸ hqc, hc⟩

theorem Holds.arranged (h : a.Holds t) : a.Arranged where
  handles := h.size_eq ▸ h.handles
  next p content hp := congrArg Prod.fst (append_new hp)
  owned n hn := by
    have hmem : n.handle ∈ (List.range t.size).map some := h.handles ▸ List.mem_map_of_mem hn
    obtain ⟨i, -, hi⟩ := List.mem_map.1 hmem
    exact ⟨i, hi.symm, append_owned hi.symm⟩
  root := h.parent? 0
  placed c hpos hc := by
    obtain ⟨p, hp, -⟩ := h.before c hpos (h.size_eq ▸ hc)
    rw [← h.parent?] at hp
    refine ⟨p, hp, fun q => ?_⟩
    split
    · rename_i hqp
      subst hqp
      have hnodup : (a.children q).Nodup := h.children q ▸ (t.pairwise_children q).imp Nat.ne_of_lt
      exact List.count_eq_one_of_mem hnodup (h.mem_children.2 hp)
    · rename_i hqp
      exact List.count_eq_zero.2 fun hmem => hqp (Option.some.inj ((h.mem_children.1 hmem).symm.trans hp))
  ordered p := by
    rw [h.children, h.size_eq]
    exact ⟨t.pairwise_children p, fun c hc => Tree.lt_of_mem_children hc⟩
  walked n hn := by
    have hbelow (c : Nat) : a.Below n c ↔ t.Below n c := by
      unfold Below Tree.Below
      simp only [← h.children, h.mem_children]
    refine ⟨_, h.walk (h.size_eq ▸ hn), t.nodup_walk n, fun c => ?_, fun p hp => ?_⟩
    · rw [Tree.mem_walk, hbelow]
    · rw [h.children]
      exact Tree.sublist_walk hp
  complete := by
    refine ⟨_, h.walk (Nat.succ_pos _), ?_⟩
    refine (List.perm_ext_iff_of_nodup (t.nodup_walk 0) List.nodup_range).2 fun c => ?_
    rw [Tree.mem_walk, List.mem_range, h.size_eq]
    refine ⟨fun hc => ?_, Tree.below_root h.before⟩
    rcases Relation.ReflTransGen.cases_tail hc with rfl | ⟨q, -, hq⟩
    · exact Nat.succ_pos _
    · exact (Tree.lt_of_mem_children hq).2

/-- Calls that pass new nodes with parents that exist, or nodes that have been added, arrange the nodes as a tree: one
for each new node, in the order of the calls, with the parent and the content that were passed. -/
theorem arranged_of_proper {name : String} {calls : List Call} (h : (start name).Proper calls) :
    (calls.foldl call (start name)).Arranged ∧
      (calls.foldl call (start name)).nodes.map (fun n => (n.parent, n.content)) =
        (none, .root) :: (added calls).map fun n => (some n.parent, n.content) := by
  have hholds := (holds_start name).calls h
  exact ⟨hholds.arranged, hholds.nodes⟩

/-- Texts below the root and below each other, in turn; the first is passed once more when it has a child. -/
def turns : List Call :=
  [⟨0, .new (.text "a")⟩, ⟨1, .new (.text "b")⟩,
    ⟨2, { content := .text "a", handle := some 1, parent := some 0, children := [2] }⟩,
    ⟨0, .new (.text "c")⟩, ⟨1, .new (.text "d")⟩]

theorem arranged_of_turns : (start "t").Proper turns ∧
    ((turns.foldl call (start "t")).Arranged ∧
      (turns.foldl call (start "t")).nodes.map (fun n => (n.parent, n.content)) =
        (none, .root) :: (added turns).map fun n => (some n.parent, n.content)) ∧
    (turns.foldl call (start "t")).nodes.map (·.children) = [[1, 3], [2, 4], [], [], []] := by
  have hproper : (start "t").Proper turns :=
    ⟨fun _ => ⟨by decide, rfl⟩, fun _ => ⟨by decide, rfl⟩, nofun, fun _ => ⟨by decide, rfl⟩,
      fun _ => ⟨by decide, rfl⟩, trivial⟩
  exact ⟨hproper, arranged_of_proper hproper, rfl⟩

/-- A renderer reads the tree that the calls describe. -/
theorem toTree_of_proper {name : String} {calls : List Call} (h : (start name).Proper calls) :
    (calls.foldl call (start name)).toTree = ⟨name, added calls⟩ :=
  ((holds_start name).calls h).toTree

end Arena

end TemplateEngine

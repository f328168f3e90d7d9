/-
Reading into a tree does what reading into blocks does. The tree of a builder is the flat form of the open tags of a
reader and of their blocks, with the cursor on the innermost open tag, so that each lookup of the builder finds what it
looks for: no registry that can be reached and no text lead to a breakdown.
-/
import TemplateEngine.Proofs.Template.Expected
import TemplateEngine.Proofs.Template.Nodes
import TemplateEngine.Proofs.Template.Tokens
import TemplateEngine.Tag.If
import TemplateEngine.Template.Builder

namespace TemplateEngine

/-! ## Growing trees -/

namespace Tree

variable {t u : Tree} {h : Nat} {n : TreeNode}

/-- The tree with one more node. -/
def push (t : Tree) (n : TreeNode) : Tree :=
  { t with nodes := t.nodes ++ [n] }

theorem append_fresh {parent : Nat} (h : parent < t.size) (c : NodeContent) :
    t.append parent (.fresh c) = .ok (t.push ⟨parent, c⟩) :=
  if_pos h

theorem node?_push_size (t : Tree) (n : TreeNode) : (t.push n).node? t.size = some n := by
  simp [push, size, node?]

theorem prefix_push (t : Tree) (n : TreeNode) : t.nodes <+: (t.push n).nodes :=
  List.prefix_append ..

theorem prefix_addBlocks (parent : Nat) (t : Tree) (bs : List Block) : t.nodes <+: (addBlocks parent t bs).nodes := by
  rw [addBlocks_eq]
  exact List.prefix_append ..

theorem addBlocks_append (parent : Nat) (t : Tree) (bs cs : List Block) :
    addBlocks parent t (bs ++ cs) = addBlocks parent (addBlocks parent t bs) cs := by
  induction bs generalizing t with
  | nil => rfl
  | cons b bs ih => exact ih _

/-- Nodes stay as the tree grows. -/
theorem node?_of_prefix (hp : t.nodes <+: u.nodes) (hn : t.node? h = some n) : u.node? h = some n := by
  cases h with
  | zero => cases hn
  | succ h =>
    obtain ⟨more, hmore⟩ := hp
    rw [node?, ← hmore]
    exact List.getElem?_append_left (List.getElem?_eq_some_iff.1 hn).1 ▸ hn

theorem content?_of_node? (hn : t.node? h = some n) : t.content? h = some n.content := by
  cases h with
  | zero => cases hn
  | succ h =>
    rw [content?, hn]
    · rfl
    · exact Nat.succ_ne_zero h

theorem parent?_of_node? (hn : t.node? h = some n) : t.parent? h = some n.parent := by
  rw [parent?, hn]
  rfl

end Tree

namespace Template

/-! ## The tree of a reader -/

/-- The tree of some open tags, each with the blocks before it, and the number of the node of the innermost one. -/
def stackTree (name : String) : List OpenTag → Tree × Nat
  | [] => (⟨name, []⟩, 0)
  | o :: rest =>
    let (t, h) := stackTree name rest
    let t := Tree.addBlocks h t o.before.reverse
    (t.push ⟨h, .tag o.plugin o.tag⟩, t.size)

variable {registry : TagRegistry} {name family : String} {os rest : List OpenTag} {bs closed : List Block}
  {r : Reader} {t : Token}

theorem stackTree_lt (name : String) (os : List OpenTag) : (stackTree name os).2 < (stackTree name os).1.size := by
  cases os with
  | nil => exact Nat.one_pos
  | cons o rest => simp [stackTree, Tree.size, Tree.push]

/-- The node of the innermost open tag stands below that of the next one. -/
theorem node?_stackTree (name : String) (o : OpenTag) (rest : List OpenTag) :
    (stackTree name (o :: rest)).1.node? (stackTree name (o :: rest)).2 =
      some ⟨(stackTree name rest).2, .tag o.plugin o.tag⟩ :=
  Tree.node?_push_size ..

theorem prefix_stackTree (name : String) (o : OpenTag) (rest : List OpenTag) :
    (stackTree name rest).1.nodes <+: (stackTree name (o :: rest)).1.nodes :=
  (Tree.prefix_addBlocks ..).trans (Tree.prefix_push ..)

theorem stackTree_snd_lt (name : String) (o : OpenTag) (rest : List OpenTag) :
    (stackTree name rest).2 < (stackTree name (o :: rest)).2 := by
  refine Nat.lt_of_lt_of_le (stackTree_lt name rest) ?_
  exact Nat.succ_le_succ (Tree.prefix_addBlocks ..).length_le

/-- The builder that has read what a reader has read. -/
def Reader.flat (name : String) (r : Reader) : Builder where
  contexts := r.contexts
  payload := r.payload
  tree := Tree.addBlocks (stackTree name r.openTags).2 (stackTree name r.openTags).1 r.blocks.reverse
  cursor := (stackTree name r.openTags).2

namespace Reader

theorem prefix_flat (name : String) (r : Reader) : (stackTree name r.openTags).1.nodes <+: (r.flat name).tree.nodes :=
  Tree.prefix_addBlocks ..

theorem cursor_flat (name : String) (r : Reader) : (r.flat name).cursor = (stackTree name r.openTags).2 := rfl

/-- The node at the cursor is that of the innermost open tag, or the root. -/
theorem content_flat (name : String) (r : Reader) : Builder.content (r.flat name).tree (r.flat name).cursor =
    .ok (match r.openTags with
      | [] => .root
      | o :: _ => .tag o.plugin o.tag) := by
  rw [Builder.content, cursor_flat]
  have hprefix := prefix_flat name r
  cases ho : r.openTags with
  | nil => rfl
  | cons o rest =>
    rw [ho] at hprefix
    rw [Tree.content?_of_node? (Tree.node?_of_prefix hprefix (node?_stackTree name o rest))]

theorem place_flat (name : String) (r : Reader) : (r.flat name).place = .ok r.place := by
  rw [Builder.place, content_flat, ok_bind, Reader.place]
  cases r.openTags <;> rfl

/-! ## Closing -/

/-- Closing tags leaves the tree as it is. -/
theorem stackTree_of_closeFamily? (name : String) (h : closeFamily? family os bs = some (rest, closed)) :
    Tree.addBlocks (stackTree name os).2 (stackTree name os).1 bs.reverse =
      Tree.addBlocks (stackTree name rest).2 (stackTree name rest).1 closed.reverse := by
  induction os generalizing bs with
  | nil => cases h
  | cons o os ih =>
    have hnest : Tree.addBlocks (stackTree name (o :: os)).2 (stackTree name (o :: os)).1 bs.reverse =
        Tree.addBlocks (stackTree name os).2 (stackTree name os).1
          (Block.tag o.plugin o.tag bs.reverse :: o.before).reverse := by
      rw [List.reverse_cons, Tree.addBlocks_append]
      rfl
    rw [closeFamily?] at h
    split at h
    · split at h
      · cases h
        exact hnest
      · exact hnest.trans (ih h)
    · cases h

/-- From the node of the innermost open tag the opening tag of a family is found just if the family can be closed, and
its parent is then the node of the innermost tag that stays open. -/
theorem familyStart?_flat (family : String) {u : Tree} (hu : (stackTree name os).1.nodes <+: u.nodes) (bs : List Block) :
    match closeFamily? family os bs with
    | some (rest, _) => ∃ start, Builder.familyStart? family u (stackTree name os).2 = .ok (some start) ∧
        Builder.parent u start = .ok (stackTree name rest).2
    | none => Builder.familyStart? family u (stackTree name os).2 = .ok none := by
  induction os generalizing bs with
  | nil =>
    rw [closeFamily?, Builder.familyStart?]
    rfl
  | cons o os ih =>
    have hnode := Tree.node?_of_prefix hu (node?_stackTree name o os)
    rw [closeFamily?, Builder.familyStart?, Tree.content?_of_node? hnode]
    dsimp only
    by_cases hf : (o.plugin.family == family) = true
    · rw [if_pos hf, if_pos hf]
      by_cases hr : o.tag.role = .opening
      · rw [if_pos hr, if_pos hr]
        refine ⟨_, rfl, ?_⟩
        rw [Builder.parent, Tree.parent?_of_node? hnode]
      · rw [if_neg hr, if_neg hr, Tree.parent?_of_node? hnode]
        dsimp only
        rw [dif_pos (stackTree_snd_lt name o os)]
        exact ih ((prefix_stackTree name o os).trans hu) _
    · rw [if_neg hf, if_neg hf]

/-! ## Steps -/

/-- What a builder gives where a reader gives `x`. -/
def flatResult (name : String) (x : Except TemplateError Reader) : Except BuildProblem Builder :=
  (x.map (flat name)).mapError .error

/-- A block of one node is added as that node. -/
theorem add_flat (name : String) {b : Block} {c : NodeContent}
    (hb : ∀ parent t, Tree.addBlock parent t b = t.push ⟨parent, c⟩) (r : Reader) :
    (r.flat name).add c = .ok ((r.add b).flat name) := by
  have hlt : (r.flat name).cursor < (r.flat name).tree.size :=
    Nat.lt_of_lt_of_le (stackTree_lt name r.openTags) (Nat.succ_le_succ (prefix_flat name r).length_le)
  rw [Builder.add, Tree.append_fresh hlt, flat, flat, Reader.add, List.reverse_cons, Tree.addBlocks_append, Tree.addBlocks,
    Tree.addBlocks, hb]

theorem enter_flat (name : String) (p : TagPlugin) (tag : Tag) (r : Reader) :
    (r.flat name).enter (.tag p tag) = .ok ((r.enter p tag).flat name) := by
  have hadd := add_flat name (b := .tag p tag []) (c := .tag p tag) (fun _ _ => rfl) r
  rw [Builder.enter, hadd, ok_bind]
  simp only [flat, Reader.add, Reader.enter, List.reverse_cons, Tree.addBlocks_append]
  rfl

theorem addOutput_flat (name : String) (t : Token) (r : Reader) :
    (r.flat name).addOutput name t = flatResult name (r.addOutput name t) := by
  unfold Builder.addOutput Reader.addOutput
  cases hp : r.payload with
  | none =>
    rw [show (r.flat name).payload = none from hp]
    rfl
  | some p =>
    rw [show (r.flat name).payload = some p from hp]
    dsimp only
    split
    · rfl
    · exact add_flat name (b := .output (Text.trim p.value) p.line) (fun _ _ => rfl) { r with payload := none }

theorem placeTag_flat (hreg : registry.Reachable) (h : r.Closable registry) (route : TagRoute) (tag : Tag) :
    Builder.placeTag name route tag (r.flat name) = flatResult name (placeTag name route tag r) := by
  obtain ⟨p, role⟩ := route
  unfold Builder.placeTag placeTag
  cases role with
  | opening =>
    dsimp only
    split
    · exact add_flat name (b := .tag p tag []) (fun _ _ => rfl) r
    · exact enter_flat name p tag r
  | closing =>
    dsimp only
    have hstart := familyStart?_flat p.family (prefix_flat name r) r.blocks
    rw [cursor_flat]
    cases hc : closeFamily? p.family r.openTags r.blocks with
    | none =>
      rw [hc] at hstart
      rw [hstart, ok_bind, place_flat]
      rfl
    | some closed =>
      obtain ⟨rest, blocks⟩ := closed
      rw [hc] at hstart
      obtain ⟨start, hstart, hparent⟩ := hstart
      rw [hstart, ok_bind]
      dsimp only
      rw [hparent, ok_bind]
      -- the nodes are the same, and the cursor has moved
      have htree := stackTree_of_closeFamily? name hc
      simp only [flat, flatResult, htree]
      rfl
  | inside =>
    dsimp only
    rw [content_flat, ok_bind]
    cases ho : r.openTags with
    | nil => rfl
    | cons o rest =>
      dsimp only
      by_cases hf : (o.plugin.family != p.family) = true
      · rw [if_pos hf, if_pos hf]
        rfl
      · rw [if_neg hf, if_neg hf]
        by_cases hl : o.tag.role = .inside ∧ o.tag.name ∈ o.plugin.finalNames
        · rw [if_pos hl, if_pos hl]
          obtain ⟨hp, hs⟩ := h o (by rw [ho]; exact List.mem_cons_self ..)
          have hmem := headD_mem_closingNames hreg hp hs
          cases hn : o.plugin.closingNames with
          | nil =>
            rw [hn] at hmem
            cases hmem
          | cons expected _ => rfl
        · rw [if_neg hl, if_neg hl]
          exact enter_flat name p tag r

theorem addTag_flat (hreg : registry.Reachable) (h : r.Closable registry) (t : Token) :
    (r.flat name).addTag registry name t = flatResult name (r.addTag registry name t) := by
  unfold Builder.addTag Reader.addTag
  rw [show (r.flat name).payload = r.payload from rfl]
  dsimp only
  cases r.payload.bind fun t => TagMarkup.ofPayload? t.value with
  | none => rfl
  | some m =>
    dsimp only
    cases registry.route m.name name (some ((r.payload.map (·.line)).getD t.line)) with
    | error e => rfl
    | ok route =>
      rw [mapError_ok, ok_bind, ok_bind]
      cases makeTag name ((r.payload.map (·.line)).getD t.line) route m with
      | error e => rfl
      | ok tag => exact placeTag_flat hreg (r := { r with payload := none }) h route tag

/-- A builder takes a token in as the reader does. -/
theorem step_flat (hreg : registry.Reachable) (h : r.Closable registry) (hcontexts : r.contexts.contexts ≠ []) (t : Token) :
    Builder.step registry name (r.flat name) t = flatResult name (step registry name r t) := by
  unfold Builder.step Reader.step
  rw [if_neg (show (r.flat name).contexts.contexts ≠ [] from hcontexts),
    show (r.flat name).contexts = r.contexts from rfl]
  rcases r.contexts.feed t with ⟨_ | owner, c⟩
  · rfl
  · dsimp only
    cases t.kind with
    | text =>
      rcases owner with _ | _ | _ | _ | _
      · rfl
      · exact add_flat name (b := .text t.value) (fun _ _ => rfl) { r with contexts := c }
      · rfl
      · rfl
      · rfl
    | delimiter d =>
      rcases owner with _ | _ | _ | _ | _
      · rfl
      · rfl
      · exact addTag_flat hreg (r := { r with contexts := c }) h t
      · exact addOutput_flat name t { r with contexts := c }
      · rfl

theorem finish_flat (name : String) (hcontexts : r.contexts.contexts ≠ []) :
    (r.flat name).finish name =
      ((r.finish name).map fun bs => Tree.ofTemplate ⟨name, bs⟩).mapError BuildProblem.error := by
  unfold Builder.finish Reader.finish
  rw [if_neg (show (r.flat name).contexts.contexts ≠ [] from hcontexts),
    show (r.flat name).contexts = r.contexts from rfl]
  cases r.contexts.finish with
  | error problem => rfl
  | ok _ =>
    dsimp only
    have hcontent := content_flat name r
    have hcursor := cursor_flat name r
    cases ho : r.openTags with
    | nil =>
      rw [ho] at hcursor
      rw [if_pos (show (r.flat name).cursor = 0 from hcursor), flat, ho]
      rfl
    | cons o rest =>
      rw [ho] at hcontent hcursor
      have hpos : (r.flat name).cursor ≠ 0 := by
        rw [hcursor]
        exact Nat.succ_ne_zero _
      rw [if_neg hpos, hcontent]
      rfl

/-! ## Lines -/

/-- The lines that a reader knows are among some lines, and the content is its outermost context. -/
structure Within (lines : Nat → Prop) (r : Reader) : Prop where
  outermost : r.contexts.contexts.getLast? = some .content
  last : lines r.contexts.line
  payload : ∀ t ∈ r.payload, lines t.line
  openTags : ∀ o ∈ r.openTags, lines o.tag.line

/-- Reading goes on within some lines, or stops with an error of the template on one of them. -/
def Proceeds (name : String) (lines : Nat → Prop) (x : Except TemplateError Reader) : Prop :=
  (∃ r, x = .ok r ∧ r.Within lines) ∨ ∃ line problem, x = .error ⟨name, some line, problem⟩ ∧ lines line

variable {lines : Nat → Prop}

theorem Within.contexts_ne_nil (h : r.Within lines) : r.contexts.contexts ≠ [] := by
  intro hnil
  have := h.outermost
  rw [hnil] at this
  cases this

/-- The content stays the outermost context: nothing closes it. -/
theorem getLast?_feed {s : ContextStack} (h : s.contexts.getLast? = some .content) (t : Token) :
    (s.feed t).2.contexts.getLast? = some .content := by
  obtain ⟨_ | ⟨top, below⟩, line⟩ := s
  · cases h
  · unfold ContextStack.feed
    cases t.kind with
    | text => exact h
    | delimiter d =>
      dsimp only
      cases hm : move? (ContextStack.top ⟨top :: below, line⟩) d with
      | none =>
        dsimp only
        split <;> exact h
      | some m =>
        cases m with
        | enter c => exact (List.getLast?_cons_cons).trans h
        | leave =>
          -- a context that is left is not the content, so that there is one below it
          cases below with
          | nil =>
            cases h
            cases d <;> cases hm
          | cons c below => exact (List.getLast?_cons_cons).symm.trans h

theorem Within.feed (h : r.Within lines) (hline : lines t.line) :
    ({ r with contexts := (r.contexts.feed t).2 } : Reader).Within lines where
  outermost := getLast?_feed h.outermost t
  last := by
    have hfeed : (r.contexts.feed t).2.line = t.line := by
      unfold ContextStack.feed
      dsimp only
      repeat' split
      all_goals rfl
    rwa [hfeed]
  payload := h.payload
  openTags := h.openTags

theorem Within.addOutput (h : r.Within lines) (hline : lines t.line) (name : String) :
    Proceeds name lines (r.addOutput name t) := by
  unfold Reader.addOutput
  split
  · split
    · exact .inr ⟨_, _, rfl, hline⟩
    · exact .inl ⟨_, rfl, h.outermost, h.last, nofun, h.openTags⟩
  · exact .inr ⟨_, _, rfl, hline⟩

theorem Within.placeTag (h : r.Within lines) (name : String) (route : TagRoute) {tag : Tag} (hline : lines tag.line) :
    Proceeds name lines (placeTag name route tag r) := by
  have henter : (r.enter route.plugin tag).Within lines :=
    ⟨h.outermost, h.last, h.payload, List.forall_mem_cons.2 ⟨hline, h.openTags⟩⟩
  unfold Reader.placeTag
  dsimp only
  split
  · split
    · exact .inl ⟨_, rfl, h.outermost, h.last, h.payload, h.openTags⟩
    · exact .inl ⟨_, rfl, henter⟩
  · split
    · rename_i rest blocks hclose
      have hopen : ∀ o ∈ rest, lines o.tag.line := fun o ho => h.openTags o ((suffix_of_closeFamily? hclose).subset ho)
      exact .inl ⟨_, rfl, h.outermost, h.last, h.payload, hopen⟩
    · exact .inr ⟨_, _, rfl, hline⟩
  · split
    · exact .inr ⟨_, _, rfl, hline⟩
    · split
      · exact .inr ⟨_, _, rfl, hline⟩
      · split
        · exact .inr ⟨_, _, rfl, hline⟩
        · exact .inl ⟨_, rfl, henter⟩

theorem Within.addTag (h : r.Within lines) (hline : lines t.line) (registry : TagRegistry) (name : String) :
    Proceeds name lines (r.addTag registry name t) := by
  have hstart : lines ((r.payload.map (·.line)).getD t.line) := by
    cases hp : r.payload with
    | none => exact hline
    | some p => exact h.payload p hp
  have hwithin : ({ r with payload := none } : Reader).Within lines := ⟨h.outermost, h.last, nofun, h.openTags⟩
  unfold Reader.addTag TagRegistry.route
  dsimp only
  split
  · exact .inr ⟨_, _, rfl, hstart⟩
  · rename_i m _
    split
    · rename_i route _
      rw [ok_bind]
      unfold makeTag
      dsimp only
      split
      · exact hwithin.placeTag name route hstart
      · split
        · exact hwithin.placeTag name route hstart
        · exact .inr ⟨_, _, rfl, hstart⟩
    · exact .inr ⟨_, _, rfl, hstart⟩

theorem Within.step (h : r.Within lines) (hline : lines t.line) (registry : TagRegistry) (name : String) :
    Proceeds name lines (step registry name r t) := by
  have hfeed := h.feed hline
  unfold Reader.step
  rcases hf : r.contexts.feed t with ⟨result, c⟩
  rw [hf] at hfeed
  cases result with
  | error problem => exact .inr ⟨_, _, rfl, hfeed.last⟩
  | ok owner =>
    have hpayload : ({ r with contexts := c, payload := some t } : Reader).Within lines :=
      ⟨hfeed.outermost, hfeed.last, by simpa using hline, hfeed.openTags⟩
    dsimp only
    split
    · exact .inl ⟨_, rfl, hfeed.outermost, hfeed.last, hfeed.payload, hfeed.openTags⟩
    · exact .inl ⟨_, rfl, hpayload⟩
    · exact .inl ⟨_, rfl, hpayload⟩
    · exact hfeed.addOutput hline name
    · exact hfeed.addTag hline registry name
    · exact .inl ⟨_, rfl, hfeed⟩

/-! ## Runs -/

/-- Tokens that stand within the lines are taken in by a builder as by a reader, which stays within them. -/
theorem Within.run (hreg : registry.Reachable) {ts : List Token} (hts : ∀ t ∈ ts, lines t.line) (h : r.Within lines)
    (hc : r.Closable registry) (name : String) :
    ts.foldlM (Builder.step registry name) (r.flat name) = flatResult name (ts.foldlM (Reader.step registry name) r) ∧
      Proceeds name lines (ts.foldlM (Reader.step registry name) r) := by
  induction ts generalizing r with
  | nil => exact ⟨rfl, .inl ⟨r, rfl, h⟩⟩
  | cons t ts ih =>
    obtain ⟨hline, hts⟩ := List.forall_mem_cons.1 hts
    rw [List.foldlM_cons, List.foldlM_cons, step_flat hreg hc h.contexts_ne_nil]
    rcases h.step hline registry name with ⟨r', hr', hwithin⟩ | ⟨line, problem, he, hline⟩
    · rw [hr']
      exact ih hts hwithin (hc.of_step hreg hr')
    · rw [he]
      exact ⟨rfl, .inr ⟨line, problem, rfl, hline⟩⟩

end Reader

/-- The number of a line of a text: its lines are counted from one, and each line end starts a new one. -/
def IsLine (text : String) (n : Nat) : Prop :=
  1 ≤ n ∧ n ≤ 1 + lineEnds text.toList

/-- Numbered tokens stand between the first line and that to which their line ends lead. -/
theorem line_of_numbered {line : Nat} {ts : List Token} (h : Numbered line ts) {t : Token} (ht : t ∈ ts) :
    line ≤ t.line ∧ t.line ≤ line + lineEnds (spelling ts) := by
  induction ts generalizing line with
  | nil => cases ht
  | cons u ts ih =>
    obtain ⟨hu, h⟩ := h
    rw [spelling_cons, lineEnds_append]
    rcases List.mem_cons.1 ht with rfl | ht
    · omega
    · have := ih h ht
      omega

theorem isLine_of_mem_tokens {text : String} {t : Token} (ht : t ∈ tokens text) : IsLine text t.line := by
  have hline := line_of_numbered (numbered_tokens text) ht
  rwa [spelling_tokens] at hline

/-- Reading into a tree and reading into blocks go together to the end, or to an error on a line of the text. -/
theorem tree_read_eq (hreg : registry.Reachable) (text name : String) :
    (∃ t, Template.read registry text name = .ok t ∧ Tree.read registry text name = .ok (Tree.ofTemplate t)) ∨
    ∃ line problem, IsLine text line ∧
      Template.read registry text name = .error ⟨name, some line, problem⟩ ∧
      Tree.read registry text name = .error (.error ⟨name, some line, problem⟩) := by
  have hstart : Reader.Within (IsLine text) {} := ⟨rfl, ⟨Nat.le_refl 1, Nat.le_add_right ..⟩, nofun, nofun⟩
  obtain ⟨hflat, hrun⟩ := hstart.run hreg (fun _ => isLine_of_mem_tokens) nofun name
  unfold Template.read Tree.read
  rw [show ({ tree := ⟨name, []⟩ } : Builder) = Reader.flat name {} from rfl, hflat]
  rcases hrun with ⟨r, hr, hwithin⟩ | ⟨line, problem, he, hl⟩
  · rw [hr, ok_bind]
    rw [show Reader.flatResult name (.ok r) = .ok (r.flat name) from rfl, ok_bind,
      Reader.finish_flat name hwithin.contexts_ne_nil]
    unfold Reader.finish
    split
    · exact .inr ⟨_, _, hwithin.last, rfl, rfl⟩
    · split
      · rename_i o rest ho
        have hline := hwithin.openTags o (by rw [ho]; exact List.mem_cons_self ..)
        exact .inr ⟨_, _, hline, rfl, rfl⟩
      · exact .inl ⟨_, rfl, rfl⟩
  · rw [he]
    exact .inr ⟨line, problem, hl, rfl, rfl⟩

/-- Whatever plugins are registered, a text is read into the tree of its template, or it is refused with an error of the
template on one of its lines. No lookup breaks down: a tag that follows a final one finds a closing name to expect, and
what is left open at the end is a tag. The error is raised, unless it is to quote the text of an argument problem and the
family that refused the arguments has none: then the fault of asking for the text is raised in its place. -/
theorem read_tree (hreg : registry.Reachable) (text name : String) :
    (∃ t, Template.read registry text name = .ok t ∧ Tree.read registry text name = .ok (Tree.ofTemplate t)) ∨
    ∃ line problem, IsLine text line ∧
      Template.read registry text name = .error ⟨name, some line, problem⟩ ∧
      Tree.read registry text name = .error (.error ⟨name, some line, problem⟩) ∧
      (Failure.ofTemplate ⟨name, some line, problem⟩ = .template ⟨name, some line, problem⟩ ∨
        ∃ p ∈ registry.plugins, ∃ tag role signature f, p.readArgs tag role signature = .error (.unwritten f) ∧
          Failure.ofTemplate ⟨name, some line, problem⟩ = .fault f) := by
  rcases tree_read_eq hreg text name with hread | ⟨line, problem, hline, hread, htree⟩
  · exact .inl hread
  · exact .inr ⟨line, problem, hline, hread, htree, raised_of_read hreg hread⟩

/-- The text `{% if a %}{% else %}`, a line end and `{% else %}`. -/
def twoElses : String :=
  "\x7b% if a %\x7d\x7b% else %\x7d\n\x7b% else %\x7d"

/-- A family that refuses all arguments and has no text for it: that of an integer with too many digits. -/
def silentTag : TagPlugin where
  label := "SilentTag"
  family := "silent"
  names := ["silent"]
  singular := true
  readArgs _ _ _ := .error (.unwritten (.value .digitsWritten))
  render _ _ _ _ := return .text ""

theorem read_silent : Template.read (TagRegistry.addAll {} [IfTag.plugin, silentTag]) "\x7b% silent %\x7d" "t" =
    .error ⟨"t", some 1, .arguments "silent" (.unwritten (.value .digitsWritten))⟩ :=
  eq_error_of_failure? (by decide +kernel)

/-- A second `else` on the second line is refused there, and the tag that is expected is found. What a silent tag is
refused for is an error of the template, too. -/
theorem read_tree_twoElses :
    (TagRegistry.addAll {} [IfTag.plugin, silentTag]).Reachable ∧
    Tree.read (TagRegistry.addAll {} [IfTag.plugin, silentTag]) twoElses "t" =
      .error (.error ⟨"t", some 2, .afterFinal ⟨"else", ""⟩ ⟨"else", ""⟩ "endif"⟩) ∧
    Tree.read (TagRegistry.addAll {} [IfTag.plugin, silentTag]) "\x7b% silent %\x7d" "t" =
      .error (.error ⟨"t", some 1, .arguments "silent" (.unwritten (.value .digitsWritten))⟩) := by
  have hreg : (TagRegistry.addAll {} [IfTag.plugin, silentTag]).Reachable := .addAll .empty [IfTag.plugin, silentTag]
  have hread : Template.read (TagRegistry.addAll {} [IfTag.plugin, silentTag]) twoElses "t" =
      .error ⟨"t", some 2, .afterFinal ⟨"else", ""⟩ ⟨"else", ""⟩ "endif"⟩ := eq_error_of_failure? (by decide +kernel)
  refine ⟨hreg, ?_, ?_⟩
  · rcases read_tree hreg twoElses "t" with ⟨t, ht, -⟩ | ⟨line, problem, -, he, htree, -⟩
    · cases hread.symm.trans ht
    · cases hread.symm.trans he
      exact htree
  · rcases read_tree hreg "\x7b% silent %\x7d" "t" with ⟨t, ht, -⟩ | ⟨line, problem, -, he, htree, -⟩
    · cases read_silent.symm.trans ht
    · cases read_silent.symm.trans he
      exact htree

/-- What is raised for a refused text is not always an error of the template: for a silent tag it is a fault. -/
theorem not_raised_error : ¬ ∀ (registry : TagRegistry) (text name : String) (e : TemplateError), registry.Reachable →
    Template.read registry text name = .error e → Failure.ofTemplate e = .template e := by
  intro h
  cases h _ _ _ _ (.addAll .empty [IfTag.plugin, silentTag]) read_silent

end Template

end TemplateEngine

/-
The meaning of conditional blocks. Although each branch is nested into the one before it and picks itself
by the selector that it is told, a block that has been read renders the body of the first condition that
holds and nothing else.
-/
import TemplateEngine.Proofs.Tag.Branches

namespace TemplateEngine.IfTag

open Template

/-! ## Chains of conditions -/

/-- A tag with a condition, and what follows it. -/
structure Case where
  tag : Tag
  condition : Expr
  body : List Block

/-- The branch of a case. -/
def Case.branch (c : Case) : Branch :=
  ⟨plugin, c.tag, c.body⟩

/-- The tag of a case is a word with a role, its signature is the condition, and a row of constructs
follows it. -/
structure Case.Read (registry : TagRegistry) (name word : String) (role : TagRole) (c : Case) : Prop where
  tag_name : c.tag.name = word
  tag_role : c.tag.role = role
  args : c.tag.args = .expr c.condition
  condition : Expr.read c.tag.signature = .ok c.condition
  body : ∃ ts, Content registry name ts c.body

/-- A branch is an `else` of the family, and a row of constructs follows it. -/
structure ElseRead (registry : TagRegistry) (name : String) (c : Branch) : Prop where
  plugin : c.plugin = plugin
  tag_name : c.tag.name = "else"
  tag_role : c.tag.role = .inside
  body : ∃ ts, Content registry name ts c.body

/-- A block that has been read: an `if`, any number of `elif` and at most one `else`, nested into each
other in this order. -/
structure Chain (registry : TagRegistry) (name : String) (b : Block) (first : Case) (rest : List Case)
    (orElse : Option Branch) : Prop where
  nested : [b] = nest ((first :: rest).map Case.branch ++ orElse.toList)
  opening : first.Read registry name "if" .opening
  inside : ∀ c ∈ rest, c.Read registry name "elif" .inside
  final : ∀ c ∈ orElse, ElseRead registry name c

/-- A row of constructs follows each tag of a chain. -/
theorem Chain.bodies {registry : TagRegistry} {name : String} {b : Block} {first : Case} {rest : List Case}
    {orElse : Option Branch} (h : Chain registry name b first rest orElse) :
    ∀ bs ∈ (first :: rest).map Case.body ++ orElse.toList.map Branch.body, ∃ ts, Content registry name ts bs := by
  intro bs hbs
  rcases List.mem_append.1 hbs with hbs | hbs
  · obtain ⟨c, hc, rfl⟩ := List.mem_map.1 hbs
    rcases List.mem_cons.1 hc with rfl | hc
    · exact h.opening.body
    · exact (h.inside c hc).body
  · obtain ⟨c, hc, rfl⟩ := List.mem_map.1 hbs
    exact (h.final c (Option.mem_toList.1 hc)).body

/-! ## Single tags -/

section

variable {services : Services} {name : String} {s : Scope} {selector : Selector} {t : Tag} {cs : List Block}

/-- How a tag renders what it holds. -/
def childrenOf (services : Services) (name : String) (cs : List Block) : ChildrenRenderer :=
  fun s selector choice => renderBlocks services name choice cs s selector

theorem renderBlock_opening (hr : t.role = .opening) :
    renderBlock services name (.tag plugin t cs) s selector =
      describeTag name t (branch t s services (childrenOf services name cs)) := by
  rw [renderBlock]
  simp only [plugin, render, hr, bind_map_left, Outcome.resolve, bind_pure]
  rfl

theorem renderBlock_elif (hr : t.role = .inside) (hn : t.name ≠ "else") :
    renderBlock services name (.tag plugin t cs) s .pending =
      describeTag name t (branch t s services (childrenOf services name cs)) := by
  rw [renderBlock]
  simp only [plugin, render, hr, pick, pure_bind, Outcome.resolve, beq_iff_eq, hn, if_false, bind_map_left, bind_pure]
  rfl

theorem renderBlock_else (hr : t.role = .inside) (hn : t.name = "else") :
    renderBlock services name (.tag plugin t cs) s .pending =
      describeTag name t (renderBlocks services name .all cs s .taken) := by
  rw [renderBlock]
  simp only [plugin, render, hr, pick, pure_bind, Outcome.resolve, hn, BEq.rfl, if_true, bind_map_left, bind_pure]

end

/-! ## Nested branches -/

section

variable {services : Services} {name : String} {s : Scope}

theorem silent : plugin.Silent := by
  intro t s services children hr
  simp only [plugin, render, hr, pick, pure_bind, Outcome.resolve]

variable {registry : TagRegistry} {c : Case} {branches : List Branch} {orElse : Option Branch}

/-- A condition that holds gives its body, one that does not passes on to the next branch, and one that
fails is the failure of its tag. -/
theorem describeTag_branch (ha : c.tag.args = .expr c.condition) (hb : ∀ b ∈ c.body, Stands registry b)
    (h : ∀ d ∈ branches, d.plugin = plugin ∧ d.tag.role = .inside) :
    describeTag name c.tag (branch c.tag s services (childrenOf services name (c.body ++ nest branches))) =
      match services.evaluate c.condition s with
      | .error e => throw (e.atTag name c.tag)
      | .ok v =>
        if v.truthy then renderBlocks services name .all c.body s .taken
        else renderBlocks services name .insideTags (nest branches) s .pending := by
  rw [branch, Tag.evaluate, ha]
  dsimp only
  cases services.evaluate c.condition s with
  | error e => exact describeTag_throw e
  | ok v =>
    show describeTag name c.tag (if v.truthy then childrenOf services name _ s .taken .all
      else childrenOf services name _ s .pending .insideTags) = _
    -- with `taken` the nested branch adds nothing, with `pending` the body is left out
    rw [childrenOf, childrenOf, renderBlocks_taken silent h, renderBlocks_passed hb]
    refine describeTag_of_noFault ?_
    split
    · exact noFault_renderBlocks (ne_bare_of_stands hb)
    · exact noFault_renderBlocks ne_bare_of_mem_nest

/-! ## The first condition that holds -/

/-- The body of the first condition that holds, or else that of the `else`. -/
def chosen (services : Services) (name : String) (s : Scope) (orElse : Option Branch) : List Case → Render String
  | [] =>
    match orElse with
    | none => return ""
    | some c => renderBlocks services name .all c.body s .taken
  | c :: cs =>
    match services.evaluate c.condition s with
    | .error e => throw (e.atTag name c.tag)
    | .ok v =>
      if v.truthy then renderBlocks services name .all c.body s .taken else chosen services name s orElse cs

theorem inside_of_chain {rest : List Case} (hr : ∀ c ∈ rest, c.Read registry name "elif" .inside)
    (hf : ∀ c ∈ orElse, ElseRead registry name c) :
    ∀ c ∈ rest.map Case.branch ++ orElse.toList, c.plugin = plugin ∧ c.tag.role = .inside := by
  intro c hc
  rcases List.mem_append.1 hc with hc | hc
  · obtain ⟨d, hd, rfl⟩ := List.mem_map.1 hc
    exact ⟨rfl, (hr d hd).tag_role⟩
  · have hc := hf c (Option.mem_toList.1 hc)
    exact ⟨hc.plugin, hc.tag_role⟩

/-- Where no branch was taken yet, the nested branches choose as a flat list of conditions does. -/
theorem renderBlocks_pending {rest : List Case} (hr : ∀ c ∈ rest, c.Read registry name "elif" .inside)
    (hf : ∀ c ∈ orElse, ElseRead registry name c) :
    renderBlocks services name .insideTags (nest (rest.map Case.branch ++ orElse.toList)) s .pending =
      chosen services name s orElse rest := by
  induction rest with
  | nil =>
    cases orElse with
    | none => exact renderBlocks.eq_1 ..
    | some c =>
      obtain ⟨p, t, body⟩ := c
      obtain ⟨rfl, hn, hrole, ts, hb⟩ := hf _ rfl
      rw [List.map_nil, List.nil_append, Option.toList_some, renderBlocks_nest_cons hrole, nest_nil, Branch.block,
        renderBlock_else hrole hn, List.append_nil]
      exact describeTag_of_noFault (noFault_renderBlocks (ne_bare_of_stands hb.stands))
  | cons c rest ih =>
    have hc := hr c (List.mem_cons_self ..)
    have hrest : ∀ d ∈ rest, d.Read registry name "elif" .inside := fun d hd => hr d (List.mem_cons_of_mem _ hd)
    have hn : c.tag.name ≠ "else" := by rw [hc.tag_name]; decide
    obtain ⟨ts, hb⟩ := hc.body
    rw [List.map_cons, List.cons_append, renderBlocks_nest_cons hc.tag_role, Case.branch, Branch.block,
      renderBlock_elif hc.tag_role hn, describeTag_branch hc.args hb.stands (inside_of_chain hrest hf), ih hrest,
      chosen]

end

/-! ## Chains of blocks that have been read -/

section

variable {registry : TagRegistry} {name : String}

/-- All tags of the family but `else` have their signature as condition. -/
theorem readArgs_eq_ok {word signature : String} {role : TagRole} {args : TagArgs} (hw : word ≠ "else")
    (h : readArgs word role signature = .ok args) : ∃ e, args = .expr e ∧ Expr.read signature = .ok e := by
  rw [readArgs, if_neg (by simpa using hw)] at h
  exact readSignature_eq_ok h

/-- A tag of the family that is not `else`, with what follows it, is a case. -/
theorem exists_case {role : TagRole} {word : String} {b : Branch} (h : b.Read registry name plugin role)
    (hn : b.tag.name = word) (hw : word ≠ "else") : ∃ c : Case, c.branch = b ∧ c.Read registry name word role := by
  obtain ⟨p, t, bs⟩ := b
  obtain ⟨rfl, hrole, -, hargs, hbody⟩ := h
  have hargs : readArgs t.name role t.signature = .ok t.args := hargs
  obtain ⟨e, he, hread⟩ := readArgs_eq_ok (by rwa [← hn] at hw) hargs
  exact ⟨⟨t, e, bs⟩, rfl, hn, hrole, he, hread, hbody⟩

/-- A block of the family is a chain of conditions. -/
theorem exists_chain (hreg : registry.Reachable) {block : Block} {b : Branch} {branches : List Branch}
    (h : Branched registry name plugin block b branches) :
    ∃ first rest orElse, Chain registry name block first rest orElse := by
  obtain ⟨first, rfl, hopening⟩ :=
    exists_case h.opening (List.mem_singleton.1 (h.opening.mem_names hreg)) (by decide)
  -- `else` is final, so that only the last branch can be one
  obtain ⟨elifs, orElse, rfl, helif, helse⟩ :=
    exists_final (fun b hb => (h.inside b hb).mem_insideNames hreg)
      fun b hb hn => h.final b hb (by rw [hn]; decide)
  obtain ⟨rest, rfl, hinside⟩ := exists_map_eq fun b hb =>
    exists_case (h.inside b (List.mem_append_left _ hb)) (helif b hb) (by decide)
  refine ⟨first, rest, orElse, h.nested, hopening, hinside, fun c hc => ?_⟩
  have hread := h.inside c (List.mem_append_right _ (Option.mem_toList.2 hc))
  exact ⟨hread.plugin, helse c hc, hread.tag_role, hread.body⟩

end

/-! ## What a block renders -/

/-- The condition has a value that does not hold. -/
def Case.Fails (services : Services) (s : Scope) (c : Case) : Prop :=
  ∃ v, services.evaluate c.condition s = .ok v ∧ v.truthy = false

/-- A render is that of the first condition that holds: neither the conditions after it nor what follows
the other tags has a part in it. -/
structure FirstMatch (services : Services) (name : String) (s : Scope) (cases : List Case) (orElse : Option Branch)
    (r : Render String) : Prop where
  taken : ∀ before c after v, cases = before ++ c :: after → (∀ d ∈ before, d.Fails services s) →
    services.evaluate c.condition s = .ok v → v.truthy = true →
    r = renderBlocks services name .all c.body s .taken
  failed : ∀ before c after e, cases = before ++ c :: after → (∀ d ∈ before, d.Fails services s) →
    services.evaluate c.condition s = .error e → r = throw (e.atTag name c.tag)
  final : ∀ c, orElse = some c → (∀ d ∈ cases, d.Fails services s) →
    r = renderBlocks services name .all c.body s .taken
  empty : orElse = none → (∀ d ∈ cases, d.Fails services s) → r = return ""

section

variable {registry : TagRegistry} {services : Services} {name : String} {s : Scope} {orElse : Option Branch}

theorem chosen_of_fails {before : List Case} (h : ∀ d ∈ before, d.Fails services s) (cs : List Case) :
    chosen services name s orElse (before ++ cs) = chosen services name s orElse cs := by
  induction before with
  | nil => rfl
  | cons d before ih =>
    obtain ⟨v, hv, ht⟩ := h d (List.mem_cons_self ..)
    rw [List.cons_append, chosen, hv]
    simp only [ht, Bool.false_eq_true, if_false]
    exact ih fun c hc => h c (List.mem_cons_of_mem _ hc)

theorem firstMatch_chosen (cases : List Case) :
    FirstMatch services name s cases orElse (chosen services name s orElse cases) where
  taken := by
    rintro before c after v rfl hb hv ht
    rw [chosen_of_fails hb, chosen, hv]
    exact if_pos ht
  failed := by
    rintro before c after e rfl hb he
    rw [chosen_of_fails hb, chosen, he]
  final := by
    rintro c rfl hb
    rw [← List.append_nil cases, chosen_of_fails hb, chosen]
  empty := by
    rintro rfl hb
    rw [← List.append_nil cases, chosen_of_fails hb, chosen]

/-- A chain of conditions renders as the flat list of its conditions chooses. -/
theorem renderBlock_chain {b : Block} {first : Case} {rest : List Case} (h : Chain registry name b first rest orElse)
    (selector : Selector) :
    renderBlock services name b s selector = chosen services name s orElse (first :: rest) := by
  obtain ⟨ts, hb⟩ := h.opening.body
  have hblock : b = .tag plugin first.tag (first.body ++ nest (rest.map Case.branch ++ orElse.toList)) := by
    have := h.nested
    rw [List.map_cons, List.cons_append, nest_cons] at this
    exact List.singleton_inj.1 this
  rw [hblock, renderBlock_opening h.opening.tag_role,
    describeTag_branch h.opening.args hb.stands (inside_of_chain h.inside h.final),
    renderBlocks_pending h.inside h.final, chosen]

end

/-- Each block of the family that a template text has, at any depth, is a chain of conditions, and renders
to the body of the first condition that holds. Where only built-in families are registered, a body renders
as it does anywhere else, whatever selector it is told. -/
theorem render_first_match {registry : TagRegistry} {text name : String} {template : Template} {tag : Tag}
    {children : List Block} (hreg : registry.Reachable) (hread : Template.read registry text name = .ok template)
    (hocc : (Block.tag plugin tag children).Occurs template.blocks) (hrole : tag.role = .opening) :
    ∃ first rest orElse, Chain registry name (.tag plugin tag children) first rest orElse ∧
      (∃ ts, ts <:+: tokens text ∧ Construct registry name ts [.tag plugin tag children]) ∧
      (∀ services s selector, FirstMatch services name s (first :: rest) orElse
        (renderBlock services name (.tag plugin tag children) s selector)) ∧
      (registry.OnlyBuiltin → ∀ bs ∈ (first :: rest).map Case.body ++ orElse.toList.map Branch.body,
        ∀ services s selector selector', renderBlocks services name .all bs s selector =
          renderBlocks services name .all bs s selector') := by
  obtain ⟨body, branches, hbranched, hts⟩ := exists_branched hreg hread hocc hrole
  obtain ⟨first, rest, orElse, hchain⟩ := exists_chain hreg hbranched
  refine ⟨first, rest, orElse, hchain, hts, ?_, ?_⟩
  · intro services s selector
    rw [renderBlock_chain hchain selector]
    exact firstMatch_chosen _
  · intro hbuiltin bs hbs services s selector selector'
    obtain ⟨us, hb⟩ := hchain.bodies bs hbs
    exact renderBlocks_selector hreg hbuiltin hb.stands selector selector'

/-- The text `{% if a %}x{% elif b %}{{ ( }}{% else %}z{% endif %}`; its output is no expression. -/
def elifText : String :=
  "\x7b% if a %\x7dx\x7b% elif b %\x7d\x7b\x7b ( \x7d\x7d\x7b% else %\x7dz\x7b% endif %\x7d"

theorem render_first_match_elif : ∃ template tag children,
    Template.read builtinRegistry elifText "t" = .ok template ∧
    (Block.tag plugin tag children).Occurs template.blocks ∧ tag.role = .opening ∧
    ∃ first rest orElse, Chain builtinRegistry "t" (.tag plugin tag children) first rest orElse ∧
      ∀ services s selector, FirstMatch services "t" s (first :: rest) orElse
        (renderBlock services "t" (.tag plugin tag children) s selector) := by
  let last : Block := .tag plugin ⟨"else", .inside, "", .none, 1, "t"⟩ [.text "z"]
  let inner : Block := .tag plugin ⟨"elif", .inside, "b", .expr (.name "b"), 1, "t"⟩ [.output "(" 1, last]
  let tag : Tag := ⟨"if", .opening, "a", .expr (.name "a"), 1, "t"⟩
  have hread : Template.read builtinRegistry elifText "t" = .ok ⟨"t", [.tag plugin tag [.text "x", inner]]⟩ := by
    with_unfolding_all rfl
  have hocc : (Block.tag plugin tag [.text "x", inner]).Occurs [.tag plugin tag [.text "x", inner]] :=
    .here (List.mem_singleton_self _)
  obtain ⟨first, rest, orElse, hchain, -, hmatch, -⟩ :=
    render_first_match reachable_builtinRegistry hread hocc rfl
  exact ⟨_, tag, _, hread, hocc, rfl, first, rest, orElse, hchain, hmatch⟩

end TemplateEngine.IfTag

/-
Blocks with inside tags. A block that has been read is an opening tag with what follows it, and the inside tags of its
family nested into each other, each again with what follows it; only the last one can be final. Told that a branch was
taken, an inside tag of a built-in family is silent, and so is what is nested into it.
-/
import TemplateEngine.Proofs.Tag.Builtin
import TemplateEngine.Proofs.Template.Reading
import TemplateEngine.Proofs.Template.Render

namespace TemplateEngine

open Template

/-! ## Tags that have been read -/

/-- The arguments of a tag that does not close are what its plugin reads. -/
theorem Template.TagTokens.args {registry : TagRegistry} {name : String} {us : List Token} {p : TagPlugin}
    {role : TagRole} {t : Tag} (ht : TagTokens registry name us ⟨p, role⟩ t) (hrole : role ≠ .closing) :
    p.readArgs t.name role t.signature = .ok t.args := by
  have h := ht.reads
  rwa [TagRoute.Reads, if_neg hrole] at h

/-- A branch of a family as it has been read: its tag has a role and is routed to the family, its arguments are what
the family reads, and a row of constructs follows it. -/
structure Template.Branch.Read (registry : TagRegistry) (name : String) (p : TagPlugin) (role : TagRole) (b : Branch) :
    Prop where
  plugin : b.plugin = p
  tag_role : b.tag.role = role
  routed : registry.route? b.tag.name = some ⟨p, role⟩
  args : p.readArgs b.tag.name role b.tag.signature = .ok b.tag.args
  body : ∃ ts, Content registry name ts b.body

/-- A block as it has been read: a branch that opens and the inside tags of its family, nested into each other. No
inside tag follows a final one. -/
structure Branched (registry : TagRegistry) (name : String) (p : TagPlugin) (block : Block) (first : Branch)
    (rest : List Branch) : Prop where
  nested : [block] = nest (first :: rest)
  opening : first.Read registry name p .opening
  inside : ∀ b ∈ rest, b.Read registry name p .inside
  final : ∀ b ∈ rest.dropLast, b.tag.name ∉ p.finalNames

variable {registry : TagRegistry} {name : String} {p : TagPlugin} {t : Tag} {cs : List Block}

namespace Template.Branch.Read

variable {role : TagRole} {b : Branch}

theorem declared (hreg : registry.Reachable) (h : b.Read registry name p role) :
    (b.tag.name, role) ∈ TagRegistry.declarations p :=
  (hreg.route h.routed).2

theorem mem_names (hreg : registry.Reachable) (h : b.Read registry name p .opening) : b.tag.name ∈ p.names := by
  simpa [TagRegistry.declarations] using declared hreg h

theorem mem_insideNames (hreg : registry.Reachable) (h : b.Read registry name p .inside) :
    b.tag.name ∈ p.insideNames := by
  simpa [TagRegistry.declarations] using declared hreg h

end Template.Branch.Read

/-- An opening tag with what it holds is such a block. -/
theorem Template.Construct.branched (hreg : registry.Reachable) {us : List Token}
    (h : Construct registry name us [.tag p t cs]) :
    ∃ body rest, Branched registry name p (.tag p t cs) ⟨p, t, body⟩ rest := by
  generalize hbs : [Block.tag p t cs] = bs at h
  cases h with
  | text h => cases hbs
  | comment h => cases hbs
  | output h hp => cases hbs
  | singular h hp =>
    cases hbs
    exact ⟨[], [], rfl, ⟨rfl, h.role, h.routed, h.args nofun, [], .nil⟩, nofun, nofun⟩
  | block h hp hb hi hc hq =>
    rename_i p q t c start body inner close bs rest
    cases hbs
    have hinside : ∀ b ∈ rest, b.Read registry name p .inside := by
      intro b hb
      obtain ⟨hfamily, ⟨us, ht⟩, hbody⟩ := hi.of_mem b hb
      -- a registry has one plugin for each family
      have hplugin : b.plugin = p := hreg.eq_of_family (hreg.route ht.routed).1 (hreg.route h.routed).1 hfamily
      rw [hplugin] at ht
      exact ⟨hplugin, ht.role, ht.routed, ht.args nofun, hbody⟩
    refine ⟨bs, rest, rfl, ⟨rfl, h.role, h.routed, h.args nofun, body, hb⟩, hinside, ?_⟩
    rcases rest.eq_nil_or_concat' with rfl | ⟨front, last, rfl⟩
    · exact nofun
    · obtain ⟨-, -, -, -, -, hfinal, -⟩ := hi.of_concat
      intro b hb
      rw [List.dropLast_concat] at hb
      rw [← (hinside b (List.mem_append_left _ hb)).plugin]
      exact hfinal b hb

/-- Each opening tag of a template, at any depth, stands with its block among the tokens of the text. -/
theorem exists_branched (hreg : registry.Reachable) {text : String} {template : Template}
    (hread : Template.read registry text name = .ok template)
    (hocc : (Block.tag p t cs).Occurs template.blocks) (hrole : t.role = .opening) :
    ∃ body rest, Branched registry name p (.tag p t cs) ⟨p, t, body⟩ rest ∧
      ∃ ts, ts <:+: tokens text ∧ Construct registry name ts [.tag p t cs] := by
  have hinside : (Block.tag p t cs).isInside = false := by rw [Block.isInside, hrole]; rfl
  obtain ⟨ts, hts, hc⟩ := ((read_eq_ok.1 hread).2.derived hocc).of_not_inside hinside
  obtain ⟨body, rest, h⟩ := hc.branched hreg
  exact ⟨body, rest, h, ts, hts, hc⟩

/-- Where only two names are possible and none follows the one, it can be that of the last branch only. -/
theorem exists_final {word final : String} {branches : List Branch}
    (hname : ∀ b ∈ branches, b.tag.name ∈ [word, final])
    (hfinal : ∀ b ∈ branches.dropLast, b.tag.name ≠ final) :
    ∃ (rest : List Branch) (last : Option Branch), branches = rest ++ last.toList ∧
      (∀ b ∈ rest, b.tag.name = word) ∧ ∀ b ∈ last, b.tag.name = final := by
  rcases branches.eq_nil_or_concat' with rfl | ⟨front, last, rfl⟩
  · exact ⟨[], none, rfl, nofun, nofun⟩
  · rw [List.dropLast_concat] at hfinal
    simp only [List.mem_cons, List.not_mem_nil, or_false] at hname
    have hfront : ∀ b ∈ front, b.tag.name = word := fun b hb =>
      (hname b (List.mem_append_left _ hb)).resolve_right (hfinal b hb)
    rcases hname last (by simp) with hlast | hlast
    · refine ⟨front ++ [last], none, (List.append_nil _).symm, ?_, nofun⟩
      intro b hb
      rcases List.mem_append.1 hb with hb | hb
      · exact hfront b hb
      · cases List.mem_singleton.1 hb
        exact hlast
    · refine ⟨front, some last, rfl, hfront, ?_⟩
      rintro b ⟨⟩
      exact hlast

theorem exists_map_eq {α β : Type} {f : α → β} {P : α → Prop} {bs : List β} (h : ∀ b ∈ bs, ∃ a, f a = b ∧ P a) :
    ∃ as : List α, as.map f = bs ∧ ∀ a ∈ as, P a := by
  induction bs with
  | nil => exact ⟨[], rfl, nofun⟩
  | cons b bs ih =>
    obtain ⟨a, rfl, ha⟩ := h b (List.mem_cons_self ..)
    obtain ⟨as, rfl, has⟩ := ih fun c hc => h c (List.mem_cons_of_mem _ hc)
    exact ⟨a :: as, rfl, List.forall_mem_cons.2 ⟨ha, has⟩⟩

/-! ## Branches that are not taken -/

/-- An inside tag of the family is silent where a branch was taken. -/
def TagPlugin.Silent (p : TagPlugin) : Prop :=
  ∀ t s services children, t.role = .inside →
    (p.render t s services children >>= fun outcome => outcome.resolve p.family .taken) = return ""

variable {services : Services} {s : Scope} {selector : Selector} {branches : List Branch} {body : List Block}

theorem renderBlock_silent (hp : p.Silent) (hr : t.role = .inside) :
    renderBlock services name (.tag p t cs) s .taken = return "" := by
  rw [renderBlock, hp t s services _ hr]
  exact describeTag_of_noFault (noFault_pure "")

theorem ne_bare_of_mem_nest : ∀ b ∈ nest branches, b ≠ .bare := by
  intro b hb
  cases branches with
  | nil => cases hb
  | cons c branches =>
    cases List.mem_singleton.1 hb
    exact nofun

/-- Where a branch was taken, only what follows its tag is rendered. -/
theorem renderBlocks_taken (hp : p.Silent) (hb : ∀ b ∈ branches, b.plugin = p ∧ b.tag.role = .inside) :
    renderBlocks services name .all (body ++ nest branches) s .taken = renderBlocks services name .all body s .taken := by
  have hnest : renderBlocks services name .all (nest branches) s .taken = return "" := by
    cases branches with
    | nil => rw [nest_nil, renderBlocks]
    | cons c branches =>
      obtain ⟨p, t, body⟩ := c
      obtain ⟨rfl, hr⟩ := hb _ (List.mem_cons_self ..)
      rw [nest_cons, renderBlocks_singleton (.inl rfl)]
      exact renderBlock_silent hp hr
  rw [renderBlocks_append, hnest]
  simp only [pure_bind, String.append_empty, bind_pure]

/-- Among inside tags, what follows the tag of a branch is passed over. -/
theorem renderBlocks_passed (hb : ∀ b ∈ body, Stands registry b) :
    renderBlocks services name .insideTags (body ++ nest branches) s selector =
      renderBlocks services name .insideTags (nest branches) s selector := by
  rw [renderBlocks_append, renderBlocks_insideTags fun b hm => (hb b hm).isInside, pure_bind]
  simp only [String.empty_append, bind_pure]

theorem ne_bare_of_stands (hb : ∀ b ∈ body, Stands registry b) : ∀ b ∈ body, b ≠ .bare := by
  rintro b hm rfl
  exact hb _ hm

/-- A branch in which others are nested, among inside tags. -/
theorem renderBlocks_nest_cons {b : Branch} (hr : b.tag.role = .inside) :
    renderBlocks services name .insideTags (nest (b :: branches)) s selector =
      renderBlock services name (b.block (nest branches)) s selector := by
  have hinside : (b.block (nest branches)).isInside = true := by rw [Branch.block, Block.isInside, hr]; rfl
  rw [nest_cons, renderBlocks_singleton (.inr hinside)]

end TemplateEngine

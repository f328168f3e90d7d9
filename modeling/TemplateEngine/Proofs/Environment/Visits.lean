/-
The blocks that a render comes to. A render visits the blocks of its template, and from a tag that it visits those that
the tag asks for: blocks that the tag holds, or those of a template that it includes, each in a scope and told a selector.
A render that fails does so at one of its visits.
-/
import TemplateEngine.Proofs.Environment.Reported
import TemplateEngine.Proofs.Tag.Requests

namespace TemplateEngine

open Template

/-- A block that a render comes to, and the template that it stands in. So many includes may still be open. -/
structure Visit where
  depth : Nat
  template : Template
  block : Block
  scope : Scope
  selector : Selector

namespace Environment

variable (env : Environment)

/-- How the blocks that a tag holds are rendered. -/
def childrenOf (depth : Nat) (t : Template) (cs : List Block) : ChildrenRenderer :=
  fun s selector choice => renderBlocks (env.services depth) t.name choice cs s selector

/-- A tag that is visited asks for something. -/
inductive AsksFor : Visit → Request → Prop
  | mk {depth : Nat} {t : Template} {p : TagPlugin} {tag : Tag} {cs : List Block} {s : Scope} {selector : Selector}
      {f : Tag → Scope → Selector → Script} {q : Request} (hf : p.RunsAs f)
      (h : (f tag s selector).Asks (env.services depth) (env.childrenOf depth t cs) q) :
      AsksFor ⟨depth, t, .tag p tag cs, s, selector⟩ q

/-- A visit leads to another one: of a block that a tag holds, or of a block of a template that it includes. -/
inductive Next : Visit → Visit → Prop
  | child {depth : Nat} {t : Template} {p : TagPlugin} {tag : Tag} {cs : List Block} {s s' : Scope}
      {selector selector' : Selector} {choice : ChildChoice} {b : Block}
      (h : env.AsksFor ⟨depth, t, .tag p tag cs, s, selector⟩ (.children s' selector' choice)) (hb : b ∈ cs)
      (hc : choice = .insideTags → b.isInside = true) :
      Next ⟨depth, t, .tag p tag cs, s, selector⟩ ⟨depth, t, b, s', selector'⟩
  | included {depth : Nat} {t t' : Template} {b b' : Block} {s s' : Scope} {selector : Selector} {id base : String}
      (h : env.AsksFor ⟨depth + 1, t, b, s, selector⟩ (.template id s' base))
      (hl : env.readLoaded id (env.loader.load id (some base)) = .ok t') (hb : b' ∈ t'.blocks) :
      Next ⟨depth + 1, t, b, s, selector⟩ ⟨depth, t', b', s'.child [], .absent⟩

/-- What is visited in the render of a template in a scope. -/
inductive Visits (t : Template) (s : Scope) : Visit → Prop
  | root {b : Block} (hb : b ∈ t.blocks) : Visits t s ⟨env.includeDepth, t, b, s, .absent⟩
  | next {u v : Visit} (h : Visits t s u) (hn : env.Next u v) : Visits t s v

/-- A visited block fails by itself: an output has no text, or a tag raises a failure of its own, gets no value for an
expression, or cannot include a template. A tag of the embedding program that runs no script is not looked into. -/
inductive Fails : Visit → Failure → Prop
  | output {depth : Nat} {t : Template} {source : String} {line : Nat} {s : Scope} {selector : Selector}
      {failure : Failure} (h : (outputText (env.services depth) t.name source line s).resultAfter [] = .error failure) :
      Fails ⟨depth, t, .output source line, s, selector⟩ failure
  | raised {depth : Nat} {t : Template} {p : TagPlugin} {tag : Tag} {cs : List Block} {s : Scope} {selector : Selector}
      {f : Tag → Scope → Selector → Script} {failure : Failure} (hf : p.RunsAs f)
      (h : (f tag s selector).Raises (env.services depth) (env.childrenOf depth t cs) failure) :
      Fails ⟨depth, t, .tag p tag cs, s, selector⟩ (failure.atTag t.name tag)
  | unscripted {depth : Nat} {t : Template} {p : TagPlugin} {tag : Tag} {cs : List Block} {s : Scope}
      {selector : Selector} {calls : List LoaderCall} {failure : Failure} (hf : ∀ f, ¬ p.RunsAs f)
      (h : (p.render tag s (env.services depth) (env.childrenOf depth t cs) >>= fun outcome =>
        outcome.resolve p.family selector).resultAfter calls = .error failure) :
      Fails ⟨depth, t, .tag p tag cs, s, selector⟩ (failure.atTag t.name tag)
  | value {depth : Nat} {t : Template} {p : TagPlugin} {tag : Tag} {cs : List Block} {s s' : Scope} {selector : Selector}
      {e : Expr} {failure : Failure} (h : env.AsksFor ⟨depth, t, .tag p tag cs, s, selector⟩ (.value e s'))
      (he : env.evaluate e s' = .error failure) :
      Fails ⟨depth, t, .tag p tag cs, s, selector⟩ (failure.atTag t.name tag)
  | unloaded {depth : Nat} {t : Template} {p : TagPlugin} {tag : Tag} {cs : List Block} {s s' : Scope}
      {selector : Selector} {id base : String} {failure : Failure}
      (h : env.AsksFor ⟨depth + 1, t, .tag p tag cs, s, selector⟩ (.template id s' base))
      (hl : env.readLoaded id (env.loader.load id (some base)) = .error failure) :
      Fails ⟨depth + 1, t, .tag p tag cs, s, selector⟩ (failure.atTag t.name tag)
  | tooDeep {t : Template} {p : TagPlugin} {tag : Tag} {cs : List Block} {s s' : Scope} {selector : Selector}
      {id base : String} (h : env.AsksFor ⟨0, t, .tag p tag cs, s, selector⟩ (.template id s' base)) :
      Fails ⟨0, t, .tag p tag cs, s, selector⟩ (.evaluation
        (.tagFault ⟨t.name, tag.line⟩ tag.markup (.foreign .runtime "maximum recursion depth exceeded")))

variable {env} {t : Template} {s : Scope} {v : Visit}

/-- An error of evaluation that comes out of loading is one that the loader raised. -/
theorem readLoaded_eq_evaluation {id : String} {r : Except Failure Value} {e : EvalError}
    (h : env.readLoaded id r = .error (.evaluation e)) : r = .error (.evaluation e) := by
  unfold readLoaded at h
  split at h
  · rcases parse_eq_error h with ⟨e, -, he⟩ | ⟨f, hf⟩
    · cases he
    · cases hf
  · cases h
  · cases h
  · cases h
    rfl

/-! ## Visited blocks -/

theorem reads_of_readLoaded {id : String} {r : Except Failure Value} {t : Template} (h : env.readLoaded id r = .ok t) :
    env.Reads t := by
  obtain ⟨text, -, hparse⟩ := readLoaded_eq_ok.1 h
  exact reads_of_parse hparse

/-- What is visited stands in a template that was read. -/
theorem Visits.occurs (ht : env.Reads t) (h : env.Visits t s v) :
    env.Reads v.template ∧ v.block.Occurs v.template.blocks := by
  induction h with
  | root hb => exact ⟨ht, .here hb⟩
  | next h hn ih =>
    cases hn with
    | child h hb hc => exact ⟨ih.1, ih.2.child hb⟩
    | included h hl hb => exact ⟨reads_of_readLoaded hl, .here hb⟩

theorem Visits.derived (ht : env.Reads t) (h : env.Visits t s v) :
    ∃ name ts, v.template.name = name ∧ Derived env.registry name ts v.block := by
  obtain ⟨⟨text, name, hread⟩, hocc⟩ := h.occurs ht
  obtain ⟨hname, hc⟩ := read_eq_ok.1 hread
  exact ⟨name, _, hname, hc.derived hocc⟩

theorem Visits.ne_bare (ht : env.Reads t) (h : env.Visits t s v) : v.block ≠ .bare := by
  obtain ⟨name, ts, -, hd⟩ := h.derived ht
  intro hbare
  rw [hbare] at hd
  cases hd with
  | construct hus h => exact h.stands _ (List.mem_singleton_self _)
  | inside hus h hb => cases hb

/-- The route of a visited tag. -/
theorem Visits.route (ht : env.Reads t) (h : env.Visits t s v) {p : TagPlugin} {tag : Tag} {cs : List Block}
    (hv : v.block = .tag p tag cs) : env.registry.route? tag.name = some ⟨p, tag.role⟩ := by
  obtain ⟨name, ts, -, hd⟩ := h.derived ht
  rw [hv] at hd
  obtain ⟨us, role, htag⟩ := hd.tagTokens
  rw [htag.role]
  exact htag.routed

/-! ## Where a render fails -/

/-- An error of evaluation that leaves an output has the place of the output in front. -/
theorem outputText_eq_error {S : Services} {name source : String} {line : Nat} {s : Scope} {calls : List LoaderCall}
    {e : EvalError} (h : (outputText S name source line s).resultAfter calls = .error (.evaluation e)) :
    (∃ e', e = .outputSource ⟨name, line⟩ source e') ∨
      (∃ x e', Expr.read source = .ok x ∧ S.evaluate x s = .error (.evaluation e') ∧ e = .located ⟨name, line⟩ e') ∨
      ∃ f, e = .outputFault ⟨name, line⟩ source f := by
  unfold outputText at h
  dsimp only at h
  split at h
  · cases h
  · cases h
    exact .inl ⟨_, rfl⟩
  · rename_i e' he'
    cases h
    rcases bind_eq_error.1 he' with hread | ⟨x, hx, he'⟩
    · cases hr : Expr.read source with
      | ok x => rw [hr] at hread; cases hread
      | error problem => rw [hr] at hread; cases problem <;> cases hread
    · rcases bind_eq_error.1 he' with hv | ⟨v, -, hv⟩
      · exact .inr (.inl ⟨x, e', mapError_eq_ok.1 hx, hv, rfl⟩)
      · obtain ⟨f, -, hf⟩ := liftFault_eq_error hv
        cases hf
  · cases h
    exact .inr (.inr ⟨_, rfl⟩)
  · rename_i hno _ _
    cases h
    exact absurd rfl (hno _)

/-- A row of blocks fails as one of its blocks does. -/
theorem exists_of_renderBlocks_error {S : Services} {name : String} {choice : ChildChoice} {bs : List Block} {s : Scope}
    {selector : Selector} {calls : List LoaderCall} {failure : Failure}
    (h : (renderBlocks S name choice bs s selector).resultAfter calls = .error failure) :
    ∃ b ∈ bs, (choice = .insideTags → b.isInside = true) ∧
      ∃ calls', (renderBlock S name b s selector).resultAfter calls' = .error failure := by
  induction bs generalizing calls with
  | nil => cases h
  | cons b bs ih =>
    have hrest {calls : List LoaderCall} (h : (renderBlocks S name choice bs s selector).resultAfter calls = .error failure) :
        ∃ b' ∈ b :: bs, (choice = .insideTags → b'.isInside = true) ∧
          ∃ calls', (renderBlock S name b' s selector).resultAfter calls' = .error failure := by
      obtain ⟨b', hb', hfails⟩ := ih h
      exact ⟨b', List.mem_cons_of_mem _ hb', hfails⟩
    rw [renderBlocks] at h
    split at h
    · exact hrest h
    · rename_i hchoice
      rcases resultAfter_bind_eq_error.1 h with h | ⟨text, -, h⟩
      · exact ⟨b, List.mem_cons_self .., fun hc => by simpa [hc] using hchoice, calls, h⟩
      · rcases resultAfter_bind_eq_error.1 h with h | ⟨rest, -, h⟩
        · exact hrest h
        · cases h

/-- The script of a visited tag fails as the tag does, but for the description of a fault. -/
theorem exists_of_describeTag_error {name : String} {tag : Tag} {r : Render String} {calls : List LoaderCall}
    {failure : Failure} (h : (describeTag name tag r).resultAfter calls = .error failure) :
    ∃ failure', r.resultAfter calls = .error failure' ∧ failure = failure'.atTag name tag := by
  rw [Render.resultAfter, run_describeTag] at h
  cases hr : r.resultAfter calls with
  | ok text =>
    rw [Render.resultAfter] at hr
    rw [hr] at h
    cases h
  | error failure' =>
    rw [Render.resultAfter] at hr
    rw [hr] at h
    cases h
    exact ⟨failure', rfl, rfl⟩

/-- An include fails as no more may be open, as its template cannot be loaded, or as one of its blocks does. -/
theorem exists_of_renderInclude_error {depth : Nat} {id base : String} {s : Scope} {calls : List LoaderCall}
    {failure : Failure} (h : ((env.services depth).renderInclude id s base).resultAfter calls = .error failure) :
    depth = 0 ∧ failure = .fault (.foreign .runtime "maximum recursion depth exceeded") ∨
      ∃ depth', depth = depth' + 1 ∧ (env.readLoaded id (env.loader.load id (some base)) = .error failure ∨
        ∃ t, env.readLoaded id (env.loader.load id (some base)) = .ok t ∧ ∃ b ∈ t.blocks, ∃ calls',
          (renderBlock (env.services depth') t.name b (s.child []) .absent).resultAfter calls' = .error failure) := by
  cases depth with
  | zero =>
    cases h
    exact .inl ⟨rfl, rfl⟩
  | succ depth' =>
    refine .inr ⟨depth', rfl, ?_⟩
    rcases resultAfter_bind_eq_error.1 h with hload | ⟨t, ht, hrows⟩
    · exact .inl hload
    · obtain ⟨b, hb, -, hfails⟩ := exists_of_renderBlocks_error hrows
      exact .inr ⟨t, ht, b, hb, hfails⟩

theorem renderBlock_script {S : Services} {name : String} {p : TagPlugin} {tag : Tag} {cs : List Block} {s : Scope}
    {selector : Selector} {f : Tag → Scope → Selector → Script} (hf : p.RunsAs f) :
    renderBlock S name (.tag p tag cs) s selector = describeTag name tag
      ((f tag s selector).run S fun s selector choice => renderBlocks S name choice cs s selector) := by
  rw [renderBlock, hf.run]

section

variable {t₀ : Template} {s₀ : Scope} (ht : env.Reads t₀)

include ht

/-- A visited block that fails does so at a visit that it leads to. By induction on the includes that may be open, and
on the block. -/
theorem Visits.exists_fails {depth : Nat} {t : Template} {b : Block} {s : Scope} {selector : Selector}
    (h : env.Visits t₀ s₀ ⟨depth, t, b, s, selector⟩) {calls : List LoaderCall} {failure : Failure}
    (hfails : (renderBlock (env.services depth) t.name b s selector).resultAfter calls = .error failure) :
    ∃ v, env.Visits t₀ s₀ v ∧ env.Fails v failure := by
  match b with
  | .text text =>
    rw [renderBlock] at hfails
    cases hfails
  | .bare => exact absurd rfl (h.ne_bare ht)
  | .output source line =>
    rw [renderBlock] at hfails
    exact ⟨_, h, .output hfails⟩
  | .tag p tag cs =>
    by_cases hno : ∀ f, ¬ p.RunsAs f
    · rw [renderBlock] at hfails
      obtain ⟨failure', hrun, rfl⟩ := exists_of_describeTag_error hfails
      exact ⟨_, h, .unscripted hno hrun⟩
    obtain ⟨f, hf⟩ := not_forall_not.1 hno
    rw [renderBlock_script hf] at hfails
    obtain ⟨failure', hrun, rfl⟩ := exists_of_describeTag_error hfails
    rcases Script.exists_of_run_error hrun with hraises | ⟨q, calls', hq, hanswer⟩
    · exact ⟨_, h, .raised hf hraises⟩
    · have hask : env.AsksFor ⟨depth, t, .tag p tag cs, s, selector⟩ q := .mk hf hq
      -- failures of blocks below are no faults, so that the tag passes them on
      have hpass {α : Type} {r : Render α} (hr : NoFault r) {calls : List LoaderCall}
          (h : r.resultAfter calls = .error failure') : failure'.atTag t.name tag = failure' :=
        Failure.atTag_of_ne fun fault hfault => hr calls fault (hfault ▸ h)
      cases q with
      | value e s' =>
        have he : (env.services depth).evaluate e s' = .error failure' := hanswer
        rw [evaluate_services] at he
        exact ⟨_, h, .value hask he⟩
      | children s' selector' choice =>
        obtain ⟨b', hb', hchoice, calls'', hfails'⟩ := exists_of_renderBlocks_error hanswer
        have hvisit := h.next (.child hask hb' hchoice)
        rw [hpass (noFault_renderBlock (hvisit.ne_bare ht)) hfails']
        exact hvisit.exists_fails hfails'
      | template id s' base =>
        rcases exists_of_renderInclude_error hanswer with ⟨rfl, rfl⟩ | ⟨depth', hdepth, hload⟩
        · exact ⟨_, h, .tooDeep hask⟩
        · have hask' : env.AsksFor ⟨depth' + 1, t, .tag p tag cs, s, selector⟩ (.template id s' base) := hdepth ▸ hask
          rcases hload with hload | ⟨t', ht', b', hb', calls'', hfails'⟩
          · exact ⟨_, hdepth ▸ h, .unloaded hask' hload⟩
          · have hvisit := Visits.next (hdepth ▸ h) (.included hask' ht' hb')
            rw [hpass (noFault_renderBlock (hvisit.ne_bare ht)) hfails']
            exact hvisit.exists_fails hfails'
  termination_by (depth, sizeOf b)
  decreasing_by
    · have := List.sizeOf_lt_of_mem hb'
      refine Prod.Lex.right _ ?_
      simp only [Block.tag.sizeOf_spec]
      omega
    · exact Prod.Lex.left _ _ (by omega)

/-- A render of a template fails as one of the blocks that it visits does. -/
theorem exists_fails {calls : List LoaderCall} {failure : Failure}
    (h : (env.renderTemplate t₀ s₀).resultAfter calls = .error failure) :
    ∃ v, env.Visits t₀ s₀ v ∧ env.Fails v failure := by
  obtain ⟨b, hmem, -, calls', hfails⟩ := exists_of_renderBlocks_error h
  exact Visits.exists_fails ht (.root hmem) hfails

end

section

variable {source name id : String} {context : Value} {calls : List LoaderCall} {failure : Failure}

/-- The render of a template text fails as the text or the context is wrong, or as the render of the template does. -/
theorem renderString_eq_error (h : (env.renderString source context name).resultAfter calls = .error failure) :
    (∃ e, failure = .template e) ∨ (∃ f, failure = .fault f) ∨
      ∃ t s, env.parse source name = .ok t ∧ env.makeScope context = .ok s ∧
        ∃ calls', (env.renderTemplate t s).resultAfter calls' = .error failure := by
  unfold renderString at h
  rcases resultAfter_bind_eq_error.1 h with h | ⟨t, ht, h⟩
  · rcases parse_eq_error h with ⟨e, -, he⟩ | hf
    · exact .inl ⟨e, he⟩
    · exact .inr (.inl hf)
  · right
    rcases resultAfter_bind_eq_error.1 h with h | ⟨s, hs, h⟩
    · obtain ⟨f, -, h⟩ := liftFault_eq_error h
      exact .inl ⟨f, h⟩
    · exact .inr ⟨t, s, ht, mapError_eq_ok.1 hs, _, h⟩

/-- The render of an id fails as the template cannot be loaded or the context is wrong, or as the render of the template
does. -/
theorem render_eq_error (h : (env.render id context).resultAfter calls = .error failure) :
    env.readLoaded id (env.loader.load id none) = .error failure ∨ (∃ f, failure = .fault f) ∨
      ∃ t s, env.readLoaded id (env.loader.load id none) = .ok t ∧ env.makeScope context = .ok s ∧
        ∃ calls', (env.renderTemplate t s).resultAfter calls' = .error failure := by
  unfold render at h
  rcases resultAfter_bind_eq_error.1 h with h | ⟨t, ht, h⟩
  · exact .inl h
  · right
    rcases resultAfter_bind_eq_error.1 h with h | ⟨s, hs, h⟩
    · obtain ⟨f, -, h⟩ := liftFault_eq_error h
      exact .inl ⟨f, h⟩
    · exact .inr ⟨t, s, ht, mapError_eq_ok.1 hs, _, h⟩

end

end Environment

end TemplateEngine

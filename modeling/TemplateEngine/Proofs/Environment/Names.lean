/-
What a render depends on. Contexts may bind names that a template does not mention, and whatever they bind these to has no
part in its text or in its errors, unless the template asks an onlooker.
-/
import TemplateEngine.Environment.Onlooker
import TemplateEngine.Proofs.Environment.Matching
import TemplateEngine.Proofs.Template.Names

namespace TemplateEngine.Environment

open Template

/-- The values of expressions are local, however many includes may be open. -/
theorem local_services (env : Environment) (depth : Nat) : (env.services depth).Local := by
  intro e s s' hs
  rw [evaluate_services]
  exact Evaluator.eval_agreeOn _ e hs

section

variable {env : Environment} {template : Template} {context context' : Value} {s s' : Scope}

theorem level_makeScope (hs : env.makeScope context = .ok s) : s.level = 0 ∧ s.inUse = [] := by
  unfold makeScope at hs
  split at hs <;> cases hs <;> exact ⟨rfl, rfl⟩

/-- Scopes of contexts that agree on some names and on the filters. -/
theorem agreeOn_makeScope {names : List String} (hs : env.makeScope context = .ok s)
    (hs' : env.makeScope context' = .ok s') (h : ∀ n ∈ Scope.filtersName :: names, s'.resolve n = s.resolve n) :
    s.AgreeOn names s' where
  resolve n hn := h n (List.mem_cons_of_mem _ hn)
  filters := h Scope.filtersName (List.mem_cons_self ..)
  level := (level_makeScope hs').1.trans (level_makeScope hs).1.symm
  inUse := (level_makeScope hs').2.trans (level_makeScope hs).2.symm

theorem renderTemplate_agreeOn (hreg : env.registry.Reachable) (hb : env.registry.OnlyBuiltin) (ht : env.Reads template)
    (hf : ∀ p t cs, (Block.tag p t cs).Occurs template.blocks → p.family ≠ "include")
    (hs : s.AgreeOn template.freeNames s') : env.renderTemplate template s' = env.renderTemplate template s := by
  obtain ⟨text, name, hread⟩ := ht
  refine renderBlocks_agreeOn (env.local_services _) template.blocks
    (fun p t cs h => suits_of_read hreg hb hread h (hf p t cs h)) .all .absent fun b hm _ => hs.mono fun n hn => ?_
  exact Block.mem_freeNamesBelow.2 ⟨b, hm, hn, .inr List.not_mem_nil⟩

theorem renderString_of_freeNames (hreg : env.registry.Reachable) (hb : env.registry.OnlyBuiltin)
    (hf : ∀ p t cs, (Block.tag p t cs).Occurs template.blocks → p.family ≠ "include")
    (hs : env.makeScope context = .ok s) (hs' : env.makeScope context' = .ok s')
    (h : ∀ n ∈ Scope.filtersName :: template.freeNames, s'.resolve n = s.resolve n) {source name : String}
    (hparse : env.parse source name = .ok template) :
    env.renderString source context' name = env.renderString source context name := by
  have hscope : liftFault (env.makeScope context) = .ok s := mapError_eq_ok.2 hs
  have hscope' : liftFault (env.makeScope context') = .ok s' := mapError_eq_ok.2 hs'
  rw [renderString_of_scope hparse hscope, renderString_of_scope hparse hscope']
  exact renderTemplate_agreeOn hreg hb (reads_of_parse hparse) hf (agreeOn_makeScope hs hs' h)

theorem renderId_of_freeNames (hreg : env.registry.Reachable) (hb : env.registry.OnlyBuiltin)
    (hf : ∀ p t cs, (Block.tag p t cs).Occurs template.blocks → p.family ≠ "include")
    (hs : env.makeScope context = .ok s) (hs' : env.makeScope context' = .ok s')
    (h : ∀ n ∈ Scope.filtersName :: template.freeNames, s'.resolve n = s.resolve n) {id : String}
    (hload : env.readLoaded id (env.loader.load id none) = .ok template) : env.render id context' = env.render id context := by
  have hscope : liftFault (env.makeScope context) = .ok s := mapError_eq_ok.2 hs
  have hscope' : liftFault (env.makeScope context') = .ok s' := mapError_eq_ok.2 hs'
  obtain ⟨text, -, hparse⟩ := readLoaded_eq_ok.1 hload
  have hrender := renderTemplate_agreeOn hreg hb (reads_of_parse hparse) hf (agreeOn_makeScope hs hs' h)
  simp only [render, load, hload, hscope, hscope', ofResult_ok, bind_assoc, pure_bind, hrender]

/-- A template without includes renders in the same way, to the same text or with the same error, in all contexts in
which its free names and the filters mean the same, be it read from a text or loaded by its id. What the callables do, and
which attributes values have beside their own, may be anything as long as it is the same in both renders. -/
theorem render_of_freeNames (hreg : env.registry.Reachable) (hb : env.registry.OnlyBuiltin) (look : Onlooker)
    (hf : ∀ p t cs, (Block.tag p t cs).Occurs template.blocks → p.family ≠ "include")
    (hs : env.makeScope context = .ok s) (hs' : env.makeScope context' = .ok s')
    (h : ∀ n ∈ Scope.filtersName :: template.freeNames, s'.resolve n = s.resolve n) :
    (∀ source name, env.parse source name = .ok template → look source context' = look source context →
      env.renderStringBefore look source context' name = env.renderStringBefore look source context name) ∧
    (∀ id, env.readLoaded id (env.loader.load id none) = .ok template → look id context' = look id context →
      env.renderBefore look id context' = env.renderBefore look id context) := by
  constructor
  · intro source name hparse hlook
    unfold renderStringBefore
    rw [hlook]
    let env' : Environment := { env with host := look source context }
    have henv : env'.registry.Reachable ∧ env'.registry.OnlyBuiltin := ⟨hreg, hb⟩
    exact renderString_of_freeNames henv.1 henv.2 hf hs hs' h hparse
  · intro id hload hlook
    unfold renderBefore
    rw [hlook]
    let env' : Environment := { env with host := look id context }
    have henv : env'.registry.Reachable ∧ env'.registry.OnlyBuiltin := ⟨hreg, hb⟩
    exact renderId_of_freeNames henv.1 henv.2 hf hs hs' h hload

end

/-- The text `{% for a in x %}{{ a ~ y | upper }}{% endfor %}`. -/
def namesText : String :=
  "\x7b% for a in x %\x7d\x7b\x7b a ~ y | upper \x7d\x7d\x7b% endfor %\x7d"

/-- A context that binds the target of the loop. -/
def targetContext : Value :=
  .dict [(.str "x", .list [.str "s"]), (.str "y", .str "t"), (.str "a", .none)]

/-- A context that binds the name of the state of the loop. -/
def stateContext : Value :=
  .dict [(.str "loop", .int 0), (.str "y", .str "t"), (.str "x", .list [.str "s"])]

theorem render_of_freeNames_loop : ∃ template s s',
    (ofTexts []).parse namesText "t" = .ok template ∧ template.freeNames = ["x", "y"] ∧
    (∀ p t cs, (Block.tag p t cs).Occurs template.blocks → p.family ≠ "include") ∧
    (ofTexts []).makeScope targetContext = .ok s ∧ (ofTexts []).makeScope stateContext = .ok s' ∧
    (∀ n ∈ Scope.filtersName :: template.freeNames, s'.resolve n = s.resolve n) ∧
    (ofTexts []).renderStringBefore (fun _ _ => Host.empty) namesText stateContext "t" =
      (ofTexts []).renderStringBefore (fun _ _ => Host.empty) namesText targetContext "t" := by
  let tag : Tag := ⟨"for", .opening, "a in x", .loop "a" none (.name "x"), 1, "t"⟩
  let template : Template := ⟨"t", [.tag ForTag.plugin tag [.output "a ~ y | upper" 1]]⟩
  have hparse : (ofTexts []).parse namesText "t" = .ok template := by with_unfolding_all rfl
  have hnames : template.freeNames = ["x", "y"] := by with_unfolding_all rfl
  have hf : ∀ p t cs, (Block.tag p t cs).Occurs template.blocks → p.family ≠ "include" := by
    intro p t cs h
    rcases Block.occurs_tag.1 h with h | h | ⟨h, -⟩
    · cases h
      decide
    · cases List.mem_singleton.1 h
    · cases List.mem_singleton.1 h
  obtain ⟨s, hs⟩ : ∃ s, (ofTexts []).makeScope targetContext = .ok s := ⟨_, rfl⟩
  obtain ⟨s', hs'⟩ : ∃ s, (ofTexts []).makeScope stateContext = .ok s := ⟨_, rfl⟩
  have hagree : ∀ n ∈ Scope.filtersName :: template.freeNames, s'.resolve n = s.resolve n := by
    cases hs
    cases hs'
    rw [hnames]
    simp only [List.forall_mem_cons]
    exact ⟨rfl, rfl, rfl, nofun⟩
  have hrender := render_of_freeNames reachable_builtinRegistry onlyBuiltin_builtinRegistry (fun _ _ => Host.empty) hf hs
    hs' hagree
  exact ⟨template, s, s', hparse, hnames, hf, hs, hs', hagree, hrender.1 _ _ hparse rfl⟩

/-- The text
`{{ len.__globals__['__builtins__']['__import__']('sys')._getframe(2).f_locals['self'].scope.resolve('secret') }}`, in
which the scope of the render is found through the attributes of a function. -/
def framesText : String :=
  "\x7b\x7b len.__globals__['__builtins__']['__import__']('sys')._getframe(2).f_locals['self'].scope" ++
    ".resolve('secret') \x7d\x7d"

/-- A context that binds a name which the text does not mention. -/
def secretContext : Value :=
  .dict [(.str "secret", .int 1)]

set_option maxRecDepth 10000 in
/-- A template that mentions a function alone tells contexts apart by the name of which an onlooker tells. -/
theorem not_render_of_freeNames : ∃ template s s', (ofTexts []).registry.Reachable ∧ (ofTexts []).registry.OnlyBuiltin ∧
    (ofTexts []).parse framesText "t" = .ok template ∧ template.freeNames = ["len"] ∧
    (∀ p t cs, (Block.tag p t cs).Occurs template.blocks → p.family ≠ "include") ∧
    (ofTexts []).makeScope (.dict []) = .ok s ∧ (ofTexts []).makeScope secretContext = .ok s' ∧
    (∀ n ∈ Scope.filtersName :: template.freeNames, s'.resolve n = s.resolve n) ∧
    ((ofTexts []).renderStringBefore (ofTexts []).onlooker framesText (.dict []) "t").run'.1 = .ok "(False, None)" ∧
    ((ofTexts []).renderStringBefore (ofTexts []).onlooker framesText secretContext "t").run'.1 = .ok "(True, 1)" := by
  let template : Template := ⟨"t", [.output
    "len.__globals__['__builtins__']['__import__']('sys')._getframe(2).f_locals['self'].scope.resolve('secret')" 1]⟩
  have hparse : (ofTexts []).parse framesText "t" = .ok template := by with_unfolding_all rfl
  have hnames : template.freeNames = ["len"] := by with_unfolding_all rfl
  have hf : ∀ p t cs, (Block.tag p t cs).Occurs template.blocks → p.family ≠ "include" := by
    intro p t cs h
    rcases h with h | ⟨h, -⟩ <;> cases List.mem_singleton.1 h
  obtain ⟨s, hs⟩ : ∃ s, (ofTexts []).makeScope (.dict []) = .ok s := ⟨_, rfl⟩
  obtain ⟨s', hs'⟩ : ∃ s, (ofTexts []).makeScope secretContext = .ok s := ⟨_, rfl⟩
  have hagree : ∀ n ∈ Scope.filtersName :: template.freeNames, s'.resolve n = s.resolve n := by
    cases hs
    cases hs'
    rw [hnames]
    simp only [List.forall_mem_cons]
    exact ⟨rfl, rfl, nofun⟩
  refine ⟨template, s, s', reachable_builtinRegistry, onlyBuiltin_builtinRegistry, hparse, hnames, hf, hs, hs', hagree, ?_, ?_⟩
  · exact eq_ok_of_toOption (by decide +kernel)
  · exact eq_ok_of_toOption (by decide +kernel)

end TemplateEngine.Environment

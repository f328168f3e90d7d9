/-
Filters of a render. They are bound to a name of their own in the outermost scope, and are looked up as any name is: where
neither the context nor a tag binds this name, each stage of each expression calls the filter of the environment.
-/
import TemplateEngine.Proofs.Environment.Visits

namespace TemplateEngine

open Template

/-! ## Scopes -/

theorem Value.same_str (m n : String) : (Value.str m).same (.str n) = (m == n) := by
  simp [Value.same, Value.equal, Value.equalAtoms, Value.sameNan]

/-- The names of bindings are the keys of their mapping. -/
theorem Bindings.valueOfKey?_toValue (b : Bindings) (n : String) :
    valueOfKey? (b.map fun e => (.str e.1, e.2)) (.str n) = b.value? n := by
  have hkeys : (fun e : Value × Value => (Value.str n).same e.1) ∘ (fun e : String × Value => (.str e.1, e.2)) =
      fun e => e.1 == n :=
    funext fun e => (Value.same_str n e.1).trans Bool.beq_comm
  rw [valueOfKey?, List.find?_map, Option.map_map, hkeys]
  rfl

/-- The filter of a name, where the reserved name of the filters means this value. -/
def Value.filterNamed? (w : Value) (n : String) : Option Value :=
  match w with
  | .dict entries => match valueOfKey? entries (.str n) with
    | some .none => Option.none
    | v => v
  | _ => Option.none

theorem Bindings.filterNamed?_toValue {b : Bindings} {n : String} (hn : b.value? n ≠ some .none) :
    b.toValue.filterNamed? n = b.value? n := by
  unfold toValue Value.filterNamed?
  dsimp only
  rw [valueOfKey?_toValue]
  split
  · contradiction
  · rfl

namespace Scope

variable {s s' : Scope}

theorem resolve_of_chain (h : s'.chain = s.chain) (n : String) : s'.resolve n = s.resolve n := by
  unfold resolve
  rw [h]

/-- The filter of a name is an entry of what the reserved name means. -/
theorem filter?_of_resolve {w : Value} (h : s.resolve filtersName = some w) (n : String) :
    s.filter? n = w.filterNamed? n := by
  unfold filter? filters Value.filterNamed?
  rw [h]
  cases w <;> rfl

end Scope

/-! ## Tags that keep the filters -/

/-- Unless a tag of the family binds the reserved name, the name means for all that the tag asks for what it means for
the tag. -/
def TagPlugin.KeepsFilters (p : TagPlugin) : Prop :=
  ∀ f t s selector S c q, p.RunsAs f → (f t s selector).Asks S c q → Scope.filtersName ∉ t.args.bound →
    q.scope.resolve Scope.filtersName = s.resolve Scope.filtersName

theorem keepsFilters_of_builtin {p : TagPlugin} (hp : p ∈ builtinTags) : p.KeepsFilters := by
  intro f t s selector S c q hf hq hbound
  rcases (hf.scripted hp).scope hq with h | ⟨b, h, hnames⟩
  · exact Scope.resolve_of_chain h _
  · have hb : b.value? Scope.filtersName = none := by
      rw [← Option.not_isSome_iff_eq_none]
      intro hsome
      rcases hnames _ hsome with h | h
      · exact hbound h
      · exact absurd h (by decide)
    rw [h, Scope.resolve_child, hb, Option.none_or]

namespace Environment

/-! ## Filters of an environment -/

/-- The filters can be called. -/
def FiltersCallable (env : Environment) : Prop :=
  ∀ n v, env.filters.value? n = some v → ∃ c, v = .callable c

theorem filtersCallable_builtin {env : Environment} (h : env.filters = builtinFilters) : env.FiltersCallable := by
  intro n v hv
  rw [h] at hv
  obtain ⟨e, he, rfl⟩ := Option.map_eq_some_iff.1 hv
  obtain ⟨f, -, rfl⟩ := List.mem_map.1 (List.mem_of_find?_eq_some he)
  exact ⟨_, rfl⟩

/-- What is added under a name can be called. -/
theorem exists_callable_of_checkCallable {noun n : String} {name v : Value} (h : checkCallable noun name v = .ok n) :
    ∃ c, v = .callable c := by
  unfold checkCallable at h
  dsimp only at h
  split at h
  · split at h
    · split at h
      · exact ⟨_, rfl⟩
      · cases h
    · obtain ⟨shown, -, h⟩ := bind_eq_ok.1 h
      cases h
  · obtain ⟨shown, -, h⟩ := bind_eq_ok.1 h
    cases h

theorem FiltersCallable.addFilter {env env' : Environment} (h : env.FiltersCallable) {name v : Value}
    (hadd : env.addFilter name v = .ok env') : env'.FiltersCallable := by
  obtain ⟨m, hm, h'⟩ := bind_eq_ok.1 hadd
  cases h'
  intro n w hw
  rw [Bindings.value?_insert] at hw
  split at hw
  · cases hw
    exact exists_callable_of_checkCallable hm
  · exact h n w hw

/-- A stage that has found a filter, or none. -/
def stage (env : Environment) (f? : Option Value) (value : Expr) (n : String) (args : List Expr) (s : Scope) :
    Except Failure Value :=
  match f? with
  | none => .error (.evaluation (.unknownFilter n))
  | some f => do
    let v ← env.evaluate value s
    let vs ← (⟨env.host, env.undefined⟩ : Evaluator).evalAll (s.holding v) args
    s.settle <$> Evaluator.describe (.filterCall n) (f.apply env.host (v :: vs))

/-- Each stage that is evaluated with the bindings of a scope finds its filter in a table. What an expression holds while
it is evaluated does not count, so that this goes for the stages in all parts of an expression. -/
def StagesFrom (env : Environment) (table : String → Option Value) (s : Scope) : Prop :=
  ∀ value n args s', s'.chain = s.chain → env.evaluate (.filter value n args) s' = env.stage (table n) value n args s'

variable {env : Environment} {s : Scope}

theorem stagesFrom_of_resolve {w : Value} (h : s.resolve Scope.filtersName = some w) :
    env.StagesFrom w.filterNamed? s := by
  intro value n args s' hs
  rw [evaluate, Evaluator.eval, Scope.filter?_of_resolve ((Scope.resolve_of_chain hs _).trans h)]
  cases w.filterNamed? n <;> rfl

theorem FiltersCallable.filterNamed? (h : env.FiltersCallable) :
    env.filters.toValue.filterNamed? = env.filters.value? := by
  funext n
  refine Bindings.filterNamed?_toValue fun hnone => ?_
  obtain ⟨c, hc⟩ := h n _ hnone
  cases hc

/-! ## Evaluations of a render -/

/-- The expression of a visited block is evaluated in a scope. -/
inductive Evaluates (env : Environment) : Visit → Expr → Scope → Prop
  | output {depth : Nat} {t : Template} {source : String} {line : Nat} {s : Scope} {selector : Selector} {x : Expr}
      (h : Expr.read source = .ok x) : Evaluates env ⟨depth, t, .output source line, s, selector⟩ x s
  | tag {v : Visit} {x : Expr} {s : Scope} (h : env.AsksFor v (.value x s)) : Evaluates env v x s

/-- What a context binds a name to. -/
def contextValue? (context : Value) (n : String) : Option Value :=
  match context with
  | .dict entries => (Bindings.ofEntries entries).value? n
  | _ => none

/-- A tag is visited that binds a name. -/
def TagBinds (env : Environment) (t : Template) (s : Scope) (n : String) : Prop :=
  ∃ v p tag cs, env.Visits t s v ∧ v.block = .tag p tag cs ∧ n ∈ tag.args.bound

/-- In the scope of a context the reserved name means what the context binds it to, or else the filters. -/
theorem resolve_makeScope {context : Value} (hs : env.makeScope context = .ok s) :
    s.resolve Scope.filtersName = (contextValue? context Scope.filtersName).or (some env.filters.toValue) := by
  have haround (b : Bindings) : Scope.resolve { bindings := b, outer := env.globalScope.chain } Scope.filtersName =
      (b.value? Scope.filtersName).or (some env.filters.toValue) := by
    show (b :: [env.globalScope.bindings]).findSome? (·.value? Scope.filtersName) = _
    rw [List.findSome?_cons, List.findSome?_cons, globalScope, Bindings.value?_insert, if_pos rfl]
    cases b.value? Scope.filtersName <;> rfl
  unfold makeScope at hs
  split at hs <;> cases hs <;> exact haround _

section

variable {t : Template} {v : Visit} (hreg : env.registry.Reachable)
  (hkeeps : ∀ p ∈ env.registry.plugins, p.KeepsFilters) (ht : env.Reads t)
  (htags : ¬ env.TagBinds t s Scope.filtersName)

include hreg hkeeps ht htags

/-- What a visited tag asks for, it asks for in a scope with the filters of its own. -/
theorem resolve_of_asks (hv : env.Visits t s v) {q : Request} (h : env.AsksFor v q) :
    q.scope.resolve Scope.filtersName = v.scope.resolve Scope.filtersName := by
  cases h with
  | mk hf hq =>
    refine hkeeps _ (hreg.route (hv.route ht rfl)).1 _ _ _ _ _ _ _ hf hq fun hbound => ?_
    exact htags ⟨_, _, _, _, hv, rfl, hbound⟩

/-- The reserved name has one meaning throughout a render. By induction on the visits. -/
theorem resolve_of_visits (hv : env.Visits t s v) :
    v.scope.resolve Scope.filtersName = s.resolve Scope.filtersName := by
  induction hv with
  | root hb => rfl
  | next hu hn ih =>
    cases hn with
    | child hask hb hc => exact (resolve_of_asks hreg hkeeps ht htags hu hask).trans ih
    | included hask hl hb =>
      have hscope := (resolve_of_asks hreg hkeeps ht htags hu hask).trans ih
      rw [Scope.resolve_child]
      exact hscope

theorem resolve_of_evaluates (hv : env.Visits t s v) {x : Expr} {s' : Scope} (hx : env.Evaluates v x s') :
    s'.resolve Scope.filtersName = s.resolve Scope.filtersName := by
  cases hx with
  | output hread => exact resolve_of_visits hreg hkeeps ht htags hv
  | tag hask => exact (resolve_of_asks hreg hkeeps ht htags hv hask).trans (resolve_of_visits hreg hkeeps ht htags hv)

end

/-- In a render in which no tag that is visited binds the reserved name of the filters, each stage of each expression that
a visited block evaluates, also in what is included, is looked up among the filters of the environment, if the context
does not bind the reserved name: it is unknown if they do not have it, and else calls the one that they have. If the
context does bind the name, it is looked up in what the context binds it to. This goes for all tags that keep the
filters, as the built-in ones do. -/
theorem stages_of_evaluates (env : Environment) (hreg : env.registry.Reachable)
    (hkeeps : ∀ p ∈ env.registry.plugins, p.KeepsFilters) (hcallable : env.FiltersCallable) {t : Template} {context : Value}
    {s s' : Scope} {v : Visit} {x : Expr} (ht : env.Reads t) (hs : env.makeScope context = .ok s)
    (htags : ¬ env.TagBinds t s Scope.filtersName) (hv : env.Visits t s v) (hx : env.Evaluates v x s') :
    (contextValue? context Scope.filtersName = none → env.StagesFrom env.filters.value? s') ∧
      ∀ w, contextValue? context Scope.filtersName = some w → env.StagesFrom w.filterNamed? s' := by
  have hresolve : s'.resolve Scope.filtersName =
      (contextValue? context Scope.filtersName).or (some env.filters.toValue) :=
    (resolve_of_evaluates hreg hkeeps ht htags hv hx).trans (resolve_makeScope hs)
  constructor
  · intro hnone
    rw [hnone] at hresolve
    rw [← hcallable.filterNamed?]
    exact stagesFrom_of_resolve hresolve
  · intro w hw
    rw [hw] at hresolve
    exact stagesFrom_of_resolve hresolve

/-- The text `{% with y = x %}{{ y | upper }}{% endwith %}`. -/
def withText : String :=
  "\x7b% with y = x %\x7d\x7b\x7b y | upper \x7d\x7d\x7b% endwith %\x7d"

theorem stages_of_evaluates_with : ∃ t s s' v x, (ofTexts []).parse withText "t" = .ok t ∧
    (ofTexts []).makeScope (.dict [(.str "x", .str "a")]) = .ok s ∧
    ¬ (ofTexts []).TagBinds t s Scope.filtersName ∧ (ofTexts []).Visits t s v ∧ (ofTexts []).Evaluates v x s' ∧
    x = .filter (.name "y") "upper" [] ∧ s'.resolve "y" = some (.str "a") ∧
    (ofTexts []).StagesFrom (ofTexts []).filters.value? s' := by
  let tag : Tag := ⟨"with", .opening, "y = x", .binding "y" (.name "x"), 1, "t"⟩
  let output : Block := .output "y | upper" 1
  let t : Template := ⟨"t", [.tag WithTag.plugin tag [output]]⟩
  have hparse : (ofTexts []).parse withText "t" = .ok t := by with_unfolding_all rfl
  obtain ⟨s, hs⟩ : ∃ s, (ofTexts []).makeScope (.dict [(.str "x", .str "a")]) = .ok s := ⟨_, rfl⟩
  -- nothing can be included, so that only the two blocks of the template are visited
  have hblocks : ∀ v, (ofTexts []).Visits t s v → v.block = .tag WithTag.plugin tag [output] ∨ v.block = output := by
    intro v hv
    induction hv with
    | root hb => exact .inl (List.mem_singleton.1 hb)
    | next hu hn ih =>
      cases hn with
      | child hask hb hc =>
        rcases ih with ih | ih
        · cases ih
          exact .inr (List.mem_singleton.1 hb)
        · exact absurd ih nofun
      | included hask hl hb =>
        obtain ⟨text, hload, -⟩ := readLoaded_eq_ok.1 hl
        cases hload
  have htags : ¬ (ofTexts []).TagBinds t s Scope.filtersName := by
    rintro ⟨v, p, tag', cs, hv, hblock, hbound⟩
    rcases hblocks v hv with h | h
    · cases hblock.symm.trans h
      exact absurd hbound (by decide)
    · exact absurd (hblock.symm.trans h) nofun
  have hvalue : ((ofTexts []).services (ofTexts []).includeDepth).evaluate (.name "x") s = .ok (.str "a") := by
    cases hs
    with_unfolding_all rfl
  have hask : (ofTexts []).AsksFor ⟨(ofTexts []).includeDepth, t, .tag WithTag.plugin tag [output], s, .absent⟩
      (.children (s.child [("y", .str "a")]) .absent .all) :=
    .mk (.builtin .withTag) (Script.asks_value.2 (.inr ⟨_, hvalue, Script.asks_children.2 (.inl rfl)⟩))
  have hvisit := Visits.next (.root (List.mem_singleton_self _)) (.child hask (List.mem_singleton_self _) nofun)
  have hx : (ofTexts []).Evaluates ⟨(ofTexts []).includeDepth, t, output, s.child [("y", .str "a")], .absent⟩
      (.filter (.name "y") "upper" []) (s.child [("y", .str "a")]) := .output (by with_unfolding_all rfl)
  have hstages := stages_of_evaluates (ofTexts []) reachable_builtinRegistry
    (fun p hp => keepsFilters_of_builtin (onlyBuiltin_builtinRegistry p hp)) (filtersCallable_builtin rfl)
    (reads_of_parse hparse) hs htags hvisit hx
  exact ⟨t, s, _, _, _, hparse, hs, htags, hvisit, hx, rfl, rfl, hstages.1 rfl⟩

/-- A context that binds the reserved name takes the filters away: that of `{{ 'a' | upper }}` is unknown, though the
environment has it. -/
theorem filters_displaced :
    (ofTexts []).filters.value? "upper" = some (.callable (.filter .upper)) ∧
      ((ofTexts []).renderString "\x7b\x7b 'a' | upper \x7d\x7d" (.dict [(.str Scope.filtersName, .dict [])])
        "t").resultAfter [] = .error (.evaluation (.located ⟨"t", 1⟩ (.unknownFilter "upper"))) :=
  ⟨rfl, eq_error_of_failure? (by decide +kernel)⟩

end Environment

end TemplateEngine

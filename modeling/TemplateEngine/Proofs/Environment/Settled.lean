/-
Levels of the scopes of a render. Whatever a name means in a scope that a render evaluates an expression in was made outside
of this scope: it was given with the context, or is a value that a tag around it had at a lower level.
-/
import TemplateEngine.Proofs.Environment.Filters
import TemplateEngine.Proofs.Expr.Made

namespace TemplateEngine

open Template

variable {level : Nat}

/-! ## Items -/

theorem Value.Before.items {v : Value} (h : v.Before level) {items : List Value} (hitems : v.items = .ok items) :
    ∀ item ∈ items, item.Before level := by
  refine fun item hitem => before_of_rename_eq fun σ hσ => ?_
  have hstays : (v.rename σ).items = List.map (rename σ) <$> v.items := items_rename σ v
  rw [h.rename_eq hσ, hitems] at hstays
  have hmap : items.map (rename σ) = items.map id := by rw [List.map_id]; exact (Except.ok.inj hstays).symm
  exact List.map_eq_map_iff.1 hmap item hitem

theorem ForTag.before_collect {v : Value} {pairs : Bool} {items : List Value} (hv : v.Before level)
    (h : collect v pairs = .ok items) : ∀ item ∈ items, item.Before level := by
  unfold collect at h
  split at h
  · cases h
    exact List.forall_mem_nil _
  · cases h
    intro item hitem
    obtain ⟨e, he, rfl⟩ := List.mem_map.1 hitem
    have hkey : e.1.Before level := fun m hm => hv m (.key he hm)
    have hvalue : e.2.Before level := fun m hm => hv m (.value he hm)
    split
    · exact .tuple (by simp [hkey, hvalue])
    · exact hkey
  · cases h
    exact fun item hitem m hm => hv m (.listItem hitem hm)
  · cases h
    exact fun item hitem m hm => hv m (.tupleItem hitem hm)
  · cases h

/-- The parts of an item are no newer than the item. -/
theorem ForTag.before_bind {target : String} {second : Option String} {item : Value} {b : Bindings}
    (hitem : item.Before level) (h : bind target second item = .ok b) : ∀ e ∈ b, e.2.Before level := by
  unfold bind at h
  split at h
  · cases h
    simpa using hitem
  · split at h
    · rename_i hitems
      cases h
      have hparts := hitem.items hitems
      intro e he
      rcases Bindings.mem_insert he with rfl | he
      · exact hparts _ (by simp)
      · cases List.mem_singleton.1 he
        exact hparts _ (by simp)
    · cases h
    · exact absurd h Evaluator.shown_ne_ok

/-! ## Tags -/

theorem Scope.Settled.child {s : Scope} (hs : s.Settled) {b : Bindings}
    (hb : ∀ e ∈ b, e.2.Before (s.level + b.length)) : (s.child b).Settled := by
  intro n v hv
  rw [resolve_child] at hv
  rcases Option.or_eq_some_iff.1 hv with hv | ⟨-, hv⟩
  · exact hb _ (Bindings.mem_of_value? hv)
  · exact (hs n v hv).mono (Nat.le_add_right _ _)

/-- The values that expressions have were made outside of a scope, or at its level. -/
def Services.Leveled (S : Services) : Prop :=
  ∀ e s v, s.Settled → S.evaluate e s = .ok v → v.Before (s.level + 1)

/-- All that a tag of the family asks for it asks for in a scope with names that mean what was made outside, as its own. -/
def TagPlugin.KeepsSettled (p : TagPlugin) : Prop :=
  ∀ f t s selector S c q, p.RunsAs f → S.Leveled → (f t s selector).Asks S c q → s.Settled → q.scope.Settled

theorem keepsSettled_of_builtin {p : TagPlugin} (hp : p ∈ builtinTags) : p.KeepsSettled := by
  intro f t s selector S c q hf hS hq hs
  cases hf.scripted hp with
  | ifTag =>
    rcases IfTag.asks_script hq with rfl | hq
    · exact hs
    · obtain ⟨e, -, rfl | rfl | rfl⟩ := IfTag.asks_branchScript hq <;> exact hs
  | switchTag =>
    by_cases hr : t.role = .opening
    · obtain ⟨e, -, rfl | ⟨v, -, rfl⟩⟩ := SwitchTag.asks_opening hr hq <;> exact hs
    · rcases SwitchTag.asks_inside hr hq with rfl | ⟨v, -, hq⟩
      · exact hs
      · obtain ⟨e, -, rfl | rfl | rfl⟩ := SwitchTag.asks_caseScript hq <;> exact hs
  | forTag =>
    rcases ForTag.asks_script hq with rfl | hq
    · exact hs
    · obtain ⟨target, second, iterable, -, rfl | rfl | ⟨v, items, hv, hitems, item, hitem, index, b, hb, rfl⟩⟩ :=
        ForTag.asks_openingScript hq
      · exact hs
      · exact hs
      · -- a round binds something always, so that its level is above that of what the items were made at
        have hitem := ForTag.before_collect (hS _ _ _ hs hv) hitems item hitem
        refine hs.child fun e he => ?_
        have hbound : s.level + 1 ≤ s.level + (b.insert "loop" (.loop index items.length)).length :=
          Nat.add_le_add_left (List.length_pos_of_mem he) _
        rcases Bindings.mem_insert he with rfl | he
        · nofun
        · exact (ForTag.before_bind hitem hb e he).mono hbound
  | withTag =>
    obtain ⟨target, e, -, rfl | ⟨v, hv, rfl⟩⟩ := WithTag.asks_script hq
    · exact hs
    · refine hs.child fun b hb => ?_
      cases List.mem_singleton.1 hb
      exact hS _ _ _ hs hv
  | applyTag =>
    rcases ApplyTag.asks_script hq with rfl | ⟨e, body, -, rfl⟩
    · exact hs
    · refine hs.child fun b hb => ?_
      cases List.mem_singleton.1 hb
      exact Value.before_str body
  | includeTag =>
    obtain ⟨e, -, rfl | ⟨id, rfl⟩⟩ := IncludeTag.asks_script hq <;> exact hs

namespace Environment

variable {env : Environment}

/-! ## Environments -/

/-- The filters and the functions can be called. -/
def OnlyCallables (env : Environment) : Prop :=
  (∀ e ∈ env.filters, ∃ c, e.2 = .callable c) ∧ ∀ e ∈ env.functions, ∃ c, e.2 = .callable c

theorem onlyCallables_builtin (hf : env.filters = builtinFilters) (hg : env.functions = builtinFunctions) :
    env.OnlyCallables := by
  rw [OnlyCallables, hf, hg]
  constructor
  all_goals
    intro e he
    obtain ⟨f, -, rfl⟩ := List.mem_map.1 he
    exact ⟨_, rfl⟩

theorem OnlyCallables.addFilter {env' : Environment} (h : env.OnlyCallables) {name v : Value}
    (hadd : env.addFilter name v = .ok env') : env'.OnlyCallables := by
  obtain ⟨n, hn, h'⟩ := bind_eq_ok.1 hadd
  cases h'
  refine ⟨fun e he => ?_, h.2⟩
  rcases Bindings.mem_insert he with rfl | he
  · exact exists_callable_of_checkCallable hn
  · exact h.1 e he

theorem OnlyCallables.addFunction {env' : Environment} (h : env.OnlyCallables) {name v : Value}
    (hadd : env.addFunction name v = .ok env') : env'.OnlyCallables := by
  obtain ⟨n, hn, h'⟩ := bind_eq_ok.1 hadd
  cases h'
  refine ⟨h.1, fun e he => ?_⟩
  rcases Bindings.mem_insert he with rfl | he
  · exact exists_callable_of_checkCallable hn
  · exact h.2 e he

theorem OnlyCallables.before_globalScope (h : env.OnlyCallables) : ∀ e ∈ env.globalScope.bindings, e.2.Before level := by
  have hcallable {v : Value} (hv : ∃ c, v = .callable c) : v.Before level := by
    obtain ⟨c, rfl⟩ := hv
    nofun
  intro e he
  rcases Bindings.mem_insert he with rfl | he
  · refine .dict fun b hb => ?_
    obtain ⟨f, hf, rfl⟩ := List.mem_map.1 hb
    exact ⟨Value.before_str f.1, hcallable (h.1 f hf)⟩
  · exact hcallable (h.2 e he)

theorem before_ofEntries {entries : List (Value × Value)} (h : (Value.dict entries).Before level) :
    ∀ e ∈ Bindings.ofEntries entries, e.2.Before level := by
  intro e he
  obtain ⟨⟨k, v⟩, hmem, hentry⟩ := List.mem_filterMap.1 he
  split at hentry
  · rename_i heq
    cases heq
    cases hentry
    exact fun m hm => h m (.value hmem hm)
  · cases hentry

/-- A context whose `nan`s are given ones makes a scope with names that mean what was made outside. -/
theorem settled_makeScope (h : env.OnlyCallables) {context : Value} (hcontext : context.Before 0) {s : Scope}
    (hs : env.makeScope context = .ok s) : s.Settled := by
  have haround {b : Bindings} (hb : ∀ e ∈ b, e.2.Before 0) :
      Scope.Settled { bindings := b, outer := env.globalScope.chain } := by
    intro n v hv
    obtain ⟨b', hb', hmem⟩ := Scope.exists_of_resolve hv
    rcases List.mem_cons.1 hb' with rfl | hb'
    · exact hb _ hmem
    · cases List.mem_singleton.1 hb'
      exact h.before_globalScope _ hmem
  unfold makeScope at hs
  split at hs <;> cases hs
  · exact haround (List.forall_mem_nil _)
  · exact haround (before_ofEntries hcontext)

/-! ## Scopes of a render -/

theorem leveled_services (hp : env.host.Pure) (depth : Nat) : (env.services depth).Leveled := by
  intro e s v hs hv
  rw [evaluate_services] at hv
  exact Evaluator.eval_before hp e hs hv

section

variable {t : Template} {s : Scope} {v : Visit} (hp : env.host.Pure) (hreg : env.registry.Reachable)
  (hkeeps : ∀ p ∈ env.registry.plugins, p.KeepsSettled) (ht : env.Reads t)

include hp hreg hkeeps ht

theorem settled_of_asks (hv : env.Visits t s v) (hsettled : v.scope.Settled) {q : Request} (h : env.AsksFor v q) :
    q.scope.Settled := by
  cases h with
  | mk hf hq =>
    exact hkeeps _ (hreg.route (hv.route ht rfl)).1 _ _ _ _ _ _ _ hf (leveled_services hp _) hq hsettled

/-- By induction on the visits. -/
theorem settled_of_visits (hs : s.Settled) (hv : env.Visits t s v) : v.scope.Settled := by
  induction hv with
  | root hb => exact hs
  | next hu hn ih =>
    cases hn with
    | child hask hb hc => exact settled_of_asks hp hreg hkeeps ht hu ih hask
    | included hask hl hb => exact (settled_of_asks hp hreg hkeeps ht hu ih hask).child (List.forall_mem_nil _)

/-- In a render all expressions, also those of templates that are included, are evaluated in scopes with names that mean what
was made outside of them. -/
theorem settled_of_evaluates (hcallables : env.OnlyCallables) {context : Value} (hcontext : context.Before 0)
    (hs : env.makeScope context = .ok s) (hv : env.Visits t s v) {x : Expr} {s' : Scope} (hx : env.Evaluates v x s') :
    s'.Settled := by
  have hsettled := settled_of_visits hp hreg hkeeps ht (settled_makeScope hcallables hcontext hs) hv
  cases hx with
  | output hread => exact hsettled
  | tag hask => exact settled_of_asks hp hreg hkeeps ht hv hsettled hask

end

end Environment

end TemplateEngine

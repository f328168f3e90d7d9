/-
What holds of each registry that registering plugins leads to: its families are distinct, and each of
its routes is a declaration of one of its plugins.
-/
import Mathlib.Data.List.Nodup
import TemplateEngine.Proofs.Result
import TemplateEngine.Tag.Registry

namespace TemplateEngine.TagRegistry

/-- The registries that registering plugins leads to, starting from the empty one. -/
inductive Reachable : TagRegistry → Prop
  | empty : Reachable {}
  | add {r r' : TagRegistry} {p : TagPlugin} {ws : List RouteWarning} (h : Reachable r)
      (ha : r.add p = .ok (r', ws)) : Reachable r'

/-- Plugins may be left out where they are refused. -/
theorem Reachable.addAll {r : TagRegistry} (h : Reachable r) (ps : List TagPlugin) : Reachable (r.addAll ps) := by
  induction ps generalizing r with
  | nil => exact h
  | cons p ps ih =>
    rw [TagRegistry.addAll, List.foldl_cons]
    cases ha : r.add p with
    | ok result => exact ih (.add h ha)
    | error e => exact ih h

/-! ## Routes -/

theorem mem_setRoute {name : String} {route : TagRoute} {routes : List (String × TagRoute)}
    {e : String × TagRoute} (h : e ∈ setRoute name route routes) : e ∈ routes ∨ e = (name, route) := by
  induction routes with
  | nil => exact .inr (List.mem_singleton.1 h)
  | cons first routes ih =>
    obtain ⟨n, old⟩ := first
    rw [setRoute] at h
    by_cases hn : n = name
    · rw [if_pos (by simpa using hn)] at h
      rcases List.mem_cons.1 h with rfl | h
      · exact .inr (by rw [hn])
      · exact .inl (List.mem_cons_of_mem _ h)
    · rw [if_neg (by simpa using hn)] at h
      rcases List.mem_cons.1 h with rfl | h
      · exact .inl (List.mem_cons_self ..)
      · exact (ih h).imp (List.mem_cons_of_mem _) id

theorem plugins_addRoutes (p : TagPlugin) (r : TagRegistry) (ds : List (String × TagRole)) :
    (addRoutes p r ds).1.plugins = r.plugins := by
  induction ds generalizing r with
  | nil => rfl
  | cons d ds ih => exact ih { r with routes := setRoute d.1 ⟨p, d.2⟩ r.routes }

theorem mem_routes_addRoutes {p : TagPlugin} {r : TagRegistry} {ds : List (String × TagRole)}
    {e : String × TagRoute} (h : e ∈ (addRoutes p r ds).1.routes) :
    e ∈ r.routes ∨ (e.2.plugin = p ∧ (e.1, e.2.role) ∈ ds) := by
  induction ds generalizing r with
  | nil => exact .inl h
  | cons d ds ih =>
    rcases ih (r := { r with routes := setRoute d.1 ⟨p, d.2⟩ r.routes }) h with h | ⟨hp, hd⟩
    · rcases mem_setRoute h with h | rfl
      · exact .inl h
      · exact .inr ⟨rfl, List.mem_cons_self ..⟩
    · exact .inr ⟨hp, List.mem_cons_of_mem _ hd⟩

/-- Registering a plugin appends it, if its family is new, and adds routes for its declarations. -/
theorem add_eq_ok {r r' : TagRegistry} {p : TagPlugin} {ws : List RouteWarning} (h : r.add p = .ok (r', ws)) :
    (∀ q ∈ r.plugins, q.family ≠ p.family) ∧
      (r', ws) = addRoutes p { r with plugins := r.plugins ++ [p] } (declarations p) := by
  unfold add at h
  split at h
  · cases h
  · rename_i hnew
    split at h
    · cases h
    · exact ⟨by simpa using hnew, (Except.ok.inj h).symm⟩

/-- A plugin without names is refused. -/
theorem names_ne_nil_of_add {r r' : TagRegistry} {p : TagPlugin} {ws : List RouteWarning} (h : r.add p = .ok (r', ws)) :
    p.names ≠ [] := by
  unfold add at h
  split at h
  · cases h
  · split at h
    · cases h
    · rename_i hnames
      exact fun hnil => hnames (List.isEmpty_iff.2 hnil)

/-! ## Reachable registries -/

theorem Reachable.nodup_families {r : TagRegistry} (h : Reachable r) : (r.plugins.map (·.family)).Nodup := by
  induction h with
  | empty => exact .nil
  | add h ha ih =>
    obtain ⟨hnew, hr⟩ := add_eq_ok ha
    have hplugins := congrArg (·.1.plugins) hr
    dsimp only at hplugins
    rw [hplugins, plugins_addRoutes, List.map_append]
    refine List.nodup_append.2 ⟨ih, List.nodup_singleton _, ?_⟩
    intro a ha b hb hab
    obtain ⟨q, hq, rfl⟩ := List.mem_map.1 ha
    cases List.mem_singleton.1 hb
    exact hnew q hq hab

/-- Plugins of one family are the same. -/
theorem Reachable.eq_of_family {r : TagRegistry} (h : Reachable r) {p q : TagPlugin} (hp : p ∈ r.plugins)
    (hq : q ∈ r.plugins) (hf : p.family = q.family) : p = q :=
  List.inj_on_of_nodup_map h.nodup_families hp hq hf

theorem Reachable.names_ne_nil {r : TagRegistry} (h : Reachable r) : ∀ p ∈ r.plugins, p.names ≠ [] := by
  induction h with
  | empty => exact nofun
  | add h ha ih =>
    obtain ⟨-, hr⟩ := add_eq_ok ha
    have hplugins := congrArg (·.1.plugins) hr
    dsimp only at hplugins
    rw [hplugins, plugins_addRoutes]
    intro q hq
    rcases List.mem_append.1 hq with hq | hq
    · exact ih q hq
    · cases List.mem_singleton.1 hq
      exact names_ne_nil_of_add ha

theorem Reachable.mem_declarations {r : TagRegistry} (h : Reachable r) {e : String × TagRoute}
    (he : e ∈ r.routes) : e.2.plugin ∈ r.plugins ∧ (e.1, e.2.role) ∈ declarations e.2.plugin := by
  induction h with
  | empty => cases he
  | add h ha ih =>
    rename_i r r' p ws
    obtain ⟨-, hr⟩ := add_eq_ok ha
    have hr' := congrArg Prod.fst hr
    dsimp only at hr'
    rw [hr'] at he
    rw [hr', plugins_addRoutes]
    rcases mem_routes_addRoutes he with he | ⟨hp, hd⟩
    · obtain ⟨hp, hd⟩ := ih he
      exact ⟨List.mem_append_left _ hp, hd⟩
    · rw [hp]
      exact ⟨List.mem_append_right _ (List.mem_singleton_self p), hd⟩

/-- The route of a name is declared by a registered plugin. -/
theorem Reachable.route {r : TagRegistry} (h : Reachable r) {name : String} {route : TagRoute}
    (hr : r.route? name = some route) :
    route.plugin ∈ r.plugins ∧ (name, route.role) ∈ declarations route.plugin := by
  unfold route? at hr
  obtain ⟨e, he, rfl⟩ := Option.map_eq_some_iff.1 hr
  have hname : e.1 = name := by simpa using List.find?_some he
  rw [← hname]
  exact h.mem_declarations (List.mem_of_find?_eq_some he)

end TemplateEngine.TagRegistry

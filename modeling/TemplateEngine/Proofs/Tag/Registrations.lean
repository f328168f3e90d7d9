/-
Registering plugins one after the other. The plugins that are accepted declare routes, opening names first, then closing
names and inside names. A name leads to the last one of its declarations, and each declaration is either the first one of
its name or gives a warning. A plugin that is refused changes nothing.
-/
import TemplateEngine.Proofs.Tag.Registry

namespace TemplateEngine

/-- The routes that a plugin declares, in the order in which they are set. -/
def TagPlugin.routes (p : TagPlugin) : List (String × TagRoute) :=
  p.names.map (fun name => (name, ⟨p, .opening⟩)) ++
    (if p.singular then [] else p.names.map fun name => (p.closingWord ++ name, ⟨p, .closing⟩)) ++
    p.insideNames.map fun name => (name, ⟨p, .inside⟩)

namespace TagRegistry

variable {r r' : TagRegistry} {p : TagPlugin} {ps : List TagPlugin} {ws : List RouteWarning} {name n : String}
  {route : TagRoute} {declared : List (String × TagRoute)} {warnings : Nat}

/-! ## Setting one route -/

theorem isSome_route?_iff : (r.route? name).isSome = true ↔ name ∈ r.routes.map (·.1) := by
  simp [route?, List.mem_map]

theorem route?_setRoute :
    route? { r with routes := setRoute name route r.routes } n = if n = name then some route else r.route? n := by
  obtain ⟨plugins, routes⟩ := r
  unfold route?
  dsimp only
  induction routes with
  | nil => by_cases hn : name = n <;> simp [setRoute, hn, @eq_comm _ n name]
  | cons row routes ih =>
    obtain ⟨m, old⟩ := row
    rw [setRoute]
    by_cases hm : m = name
    · subst hm
      by_cases hn : m = n <;> simp [hn, @eq_comm _ n m]
    · rw [if_neg (by simpa using hm), List.find?_cons, List.find?_cons]
      by_cases hn : m = n
      · subst hn
        simp [hm]
      · simp only [beq_eq_false_iff_ne.2 hn]
        exact ih

theorem names_setRoute (name : String) (route : TagRoute) (routes : List (String × TagRoute)) :
    (setRoute name route routes).map (·.1) =
      if name ∈ routes.map (·.1) then routes.map (·.1) else routes.map (·.1) ++ [name] := by
  induction routes with
  | nil => rfl
  | cons row routes ih =>
    obtain ⟨m, old⟩ := row
    rw [setRoute]
    by_cases hm : m = name
    · simp [hm]
    · rw [if_neg (by simpa using hm), List.map_cons, ih, List.map_cons]
      split <;> simp_all [eq_comm]

theorem length_setRoute (r : TagRegistry) (name : String) (route : TagRoute) :
    (setRoute name route r.routes).length + (if (r.route? name).isSome then 1 else 0) = r.routes.length + 1 := by
  have hlength := congrArg List.length (names_setRoute name route r.routes)
  by_cases hold : name ∈ r.routes.map (·.1)
  · rw [if_pos hold, List.length_map, List.length_map] at hlength
    rw [if_pos (isSome_route?_iff.2 hold), hlength]
  · rw [if_neg hold, List.length_append, List.length_map, List.length_map] at hlength
    rw [if_neg fun hsome => hold (isSome_route?_iff.1 hsome), hlength, Nat.add_zero, List.length_singleton]

/-! ## The routes of declarations -/

/-- The last declaration of a name. -/
def LastDeclared (declared : List (String × TagRoute)) (name : String) (route : TagRoute) : Prop :=
  ∃ before after, declared = before ++ (name, route) :: after ∧ ∀ row ∈ after, row.1 ≠ name

theorem not_lastDeclared_nil : ¬ LastDeclared [] name route := by
  rintro ⟨before, after, h, -⟩
  simp at h

/-- One more declaration is the last one of its name, and for other names changes nothing. -/
theorem lastDeclared_concat_iff {row : String × TagRoute} : LastDeclared (declared ++ [row]) name route ↔
    row = (name, route) ∨ (row.1 ≠ name ∧ LastDeclared declared name route) := by
  constructor
  · rintro ⟨before, after, h, hafter⟩
    rcases List.eq_nil_or_concat after with rfl | ⟨after, last, rfl⟩
    · exact .inl (List.singleton_injective (List.append_inj' h rfl).2)
    · -- something stands behind the declaration of the name, so that it is not the new one
      rw [List.concat_eq_append, ← List.cons_append, ← List.append_assoc] at h
      rw [List.concat_eq_append, List.forall_mem_append, List.forall_mem_singleton] at hafter
      obtain ⟨hdeclared, hrow⟩ := List.append_inj' h rfl
      rw [List.singleton_injective hrow]
      exact .inr ⟨hafter.2, before, after, hdeclared, hafter.1⟩
  · rintro (rfl | ⟨hrow, before, after, rfl, hafter⟩)
    · exact ⟨declared, [], rfl, List.forall_mem_nil _⟩
    · refine ⟨before, after ++ [row], by rw [List.append_assoc, List.cons_append], ?_⟩
      exact List.forall_mem_append.2 ⟨hafter, List.forall_mem_singleton.2 hrow⟩

/-- What setting the routes of some declarations, one after the other, leads to. -/
structure Routed (declared : List (String × TagRoute)) (warnings : Nat) (r : TagRegistry) : Prop where
  last : ∀ name route, r.route? name = some route ↔ LastDeclared declared name route
  names : ∀ name, name ∈ r.routes.map (·.1) ↔ ∃ row ∈ declared, row.1 = name
  nodup : (r.routes.map (·.1)).Nodup
  /-- All declarations but the first one of each name were warned of. -/
  counted : warnings + r.routes.length = declared.length

theorem Routed.empty : Routed [] 0 {} :=
  ⟨fun _ _ => iff_of_false nofun not_lastDeclared_nil, fun _ => ⟨nofun, nofun⟩, .nil, rfl⟩

theorem Routed.setRoute (h : Routed declared warnings r) (name : String) (route : TagRoute) :
    Routed (declared ++ [(name, route)]) (warnings + if (r.route? name).isSome then 1 else 0)
      { r with routes := TagRegistry.setRoute name route r.routes } := by
  refine ⟨fun n other => ?_, fun n => ?_, ?_, ?_⟩
  · rw [route?_setRoute, lastDeclared_concat_iff, ← h.last]
    by_cases hn : n = name
    · simp [hn]
    · simp [hn, Ne.symm hn]
  · have hdeclared : (∃ row ∈ declared ++ [(name, route)], row.1 = n) ↔ n ∈ r.routes.map (·.1) ∨ name = n := by
      simp only [List.mem_append, List.mem_singleton, or_and_right, exists_or, exists_eq_left, h.names]
    dsimp only
    rw [names_setRoute, hdeclared]
    split
    · rename_i hold
      exact ⟨.inl, fun hn => hn.elim id fun hn => hn ▸ hold⟩
    · rw [List.mem_append, List.mem_singleton, eq_comm]
  · dsimp only
    rw [names_setRoute]
    split
    · exact h.nodup
    · rename_i hnew
      rw [← List.concat_eq_append]
      exact List.Nodup.concat hnew h.nodup
  · have hlength := length_setRoute r name route
    have hcounted := h.counted
    rw [List.length_append, List.length_singleton]
    dsimp only
    omega

theorem Routed.addRoutes (h : Routed declared warnings r) (ds : List (String × TagRole)) :
    Routed (declared ++ ds.map fun d => (d.1, ⟨p, d.2⟩)) (warnings + (addRoutes p r ds).2.length)
      (addRoutes p r ds).1 := by
  induction ds generalizing declared warnings r with
  | nil => rwa [List.map_nil, List.append_nil]
  | cons d ds ih =>
    obtain ⟨name, role⟩ := d
    -- the first declaration gives its warning before the others are set
    have hrest := ih (h.setRoute name ⟨p, role⟩)
    rw [List.append_assoc, List.singleton_append, Nat.add_assoc] at hrest
    rw [List.map_cons, TagRegistry.addRoutes]
    dsimp only
    rw [List.length_append]
    cases hold : r.route? name <;> rw [hold] at hrest <;> exact hrest

theorem map_declarations (p : TagPlugin) : (declarations p).map (fun d => (d.1, ⟨p, d.2⟩)) = p.routes := by
  unfold declarations TagPlugin.routes TagPlugin.closingNames
  cases p.singular <;> simp [Function.comp_def]

theorem Routed.add (h : Routed declared warnings r) (ha : r.add p = .ok (r', ws)) :
    Routed (declared ++ p.routes) (warnings + ws.length) r' := by
  obtain ⟨-, hadd⟩ := add_eq_ok ha
  obtain ⟨rfl, rfl⟩ := Prod.mk.inj hadd
  -- the list of plugins takes no part in the routes
  have hwith : Routed declared warnings { r with plugins := r.plugins ++ [p] } := ⟨h.last, h.names, h.nodup, h.counted⟩
  rw [← map_declarations]
  exact hwith.addRoutes (declarations p)

/-! ## Runs -/

/-- The plugins that are accepted when plugins are registered one after the other, each with its warnings. -/
def acceptedCalls (r : TagRegistry) : List TagPlugin → List (TagPlugin × List RouteWarning)
  | [] => []
  | p :: ps => match r.add p with
    | .ok (r', ws) => (p, ws) :: acceptedCalls r' ps
    | .error _ => acceptedCalls r ps

/-- The routes that accepted plugins declare, and the warnings that they gave. -/
def declaredBy (calls : List (TagPlugin × List RouteWarning)) : List (String × TagRoute) :=
  calls.flatMap fun call => call.1.routes

@[inherit_doc declaredBy]
def warningsOf (calls : List (TagPlugin × List RouteWarning)) : List RouteWarning :=
  calls.flatMap fun call => call.2

theorem addAll_cons (r : TagRegistry) (p : TagPlugin) (ps : List TagPlugin) :
    r.addAll (p :: ps) = match r.add p with
      | .ok (r', _) => r'.addAll ps
      | .error _ => r.addAll ps := by
  rw [addAll, List.foldl_cons]
  cases r.add p <;> rfl

theorem acceptedCalls_append (r : TagRegistry) (ps qs : List TagPlugin) :
    acceptedCalls r (ps ++ qs) = acceptedCalls r ps ++ acceptedCalls (r.addAll ps) qs := by
  induction ps generalizing r with
  | nil => rfl
  | cons p ps ih =>
    rw [List.cons_append, acceptedCalls, acceptedCalls, addAll_cons]
    cases r.add p with
    | ok result =>
      dsimp only
      rw [ih, List.cons_append]
    | error problem => exact ih r

/-- A call that is refused might as well not have been made, whatever calls follow. -/
theorem of_refused (h : Fails ((r.addAll ps).add p)) (qs : List TagPlugin) :
    r.addAll (ps ++ p :: qs) = r.addAll (ps ++ qs) ∧ acceptedCalls r (ps ++ p :: qs) = acceptedCalls r (ps ++ qs) := by
  obtain ⟨problem, h⟩ := h
  have happend (qs : List TagPlugin) : r.addAll (ps ++ qs) = (r.addAll ps).addAll qs := List.foldl_append
  rw [happend, happend, addAll_cons, acceptedCalls_append, acceptedCalls_append, acceptedCalls, h]
  exact ⟨rfl, rfl⟩

theorem add_fails_iff : Fails (r.add p) ↔ (∃ q ∈ r.plugins, q.family = p.family) ∨ p.names = [] := by
  unfold add
  by_cases hfamily : (r.plugins.any fun q => q.family == p.family) = true
  · rw [if_pos hfamily]
    exact ⟨fun _ => .inl (by simpa using hfamily), fun _ => fails_error _⟩
  · have hnew : ¬ ∃ q ∈ r.plugins, q.family = p.family := by simpa using hfamily
    rw [if_neg hfamily]
    by_cases hnames : p.names.isEmpty = true
    · rw [if_pos hnames]
      exact ⟨fun _ => .inr (List.isEmpty_iff.1 hnames), fun _ => fails_error _⟩
    · rw [if_neg hnames]
      exact ⟨fun h => absurd h (not_fails_ok _), fun h => absurd (List.isEmpty_iff.2 (h.resolve_left hnew)) hnames⟩

/-- The registry that some accepted calls have led to. -/
structure Recorded (calls : List (TagPlugin × List RouteWarning)) (r : TagRegistry) : Prop where
  plugins : r.plugins = calls.map (·.1)
  reachable : r.Reachable
  routed : Routed (declaredBy calls) (warningsOf calls).length r

variable {calls : List (TagPlugin × List RouteWarning)}

theorem Recorded.add (h : Recorded calls r) (ha : r.add p = .ok (r', ws)) : Recorded (calls ++ [(p, ws)]) r' := by
  refine ⟨?_, .add h.reachable ha, ?_⟩
  · obtain ⟨rfl, -⟩ := Prod.mk.inj (add_eq_ok ha).2
    rw [plugins_addRoutes, List.map_append]
    exact congrArg (· ++ [p]) h.plugins
  · have hrouted := h.routed.add ha
    simpa [declaredBy, warningsOf] using hrouted

/-- By induction on the calls: each one that is accepted is recorded, and the others change nothing. -/
theorem Recorded.addAll (h : Recorded calls r) (ps : List TagPlugin) :
    Recorded (calls ++ acceptedCalls r ps) (r.addAll ps) := by
  induction ps generalizing calls r with
  | nil =>
    rw [acceptedCalls, List.append_nil]
    exact h
  | cons p ps ih =>
    rw [addAll_cons, acceptedCalls]
    cases ha : r.add p with
    | ok result =>
      have hrest := ih (h.add ha)
      rwa [List.append_assoc, List.singleton_append] at hrest
    | error problem => exact ih h

/-! ## The names of a registry -/

theorem names_perm (r : TagRegistry) : r.names.Perm (r.routes.map (·.1)) :=
  (List.mergeSort_perm ..).map _

theorem route_eq_error_iff {template : String} {line : Option Nat} :
    r.route name template line = .error ⟨template, line, .unknownTag name⟩ ↔ name ∉ r.routes.map (·.1) := by
  rw [← isSome_route?_iff]
  unfold route
  cases r.route? name <;> simp

/-! ## From the empty registry -/

/-- The registry that registering plugins one after the other leads to. -/
def registered (ps : List TagPlugin) : TagRegistry :=
  ({} : TagRegistry).addAll ps

/-- The plugins among them that are accepted, each with its warnings. -/
def accepted (ps : List TagPlugin) : List (TagPlugin × List RouteWarning) :=
  acceptedCalls {} ps

theorem recorded_registered (ps : List TagPlugin) : Recorded (accepted ps) (registered ps) :=
  have hempty : Recorded [] {} := ⟨rfl, .empty, .empty⟩
  hempty.addAll ps

/-- Whatever plugins are registered one after the other: one more is refused exactly if a plugin of its family was
accepted before or it declares no opening name, and is then as if it had not been there. The registry lists the accepted
plugins in order, one of each family. Each name leads to the last declaration of it by an accepted plugin, and is unknown
without one; and there are as many warnings as declarations of a name that had one before. -/
theorem registered_last_declared (ps : List TagPlugin) :
    (∀ p, Fails ((registered ps).add p) ↔ (∃ call ∈ accepted ps, call.1.family = p.family) ∨ p.names = []) ∧
    (∀ p qs, Fails ((registered ps).add p) →
      registered (ps ++ p :: qs) = registered (ps ++ qs) ∧ accepted (ps ++ p :: qs) = accepted (ps ++ qs)) ∧
    (registered ps).plugins = (accepted ps).map (·.1) ∧ ((registered ps).plugins.map (·.family)).Nodup ∧
    (∀ name route, (registered ps).route? name = some route ↔ LastDeclared (declaredBy (accepted ps)) name route) ∧
    (∀ name template line, (registered ps).route name template line = .error ⟨template, line, .unknownTag name⟩ ↔
      ∀ row ∈ declaredBy (accepted ps), row.1 ≠ name) ∧
    (registered ps).names.Nodup ∧
    (∀ name, name ∈ (registered ps).names ↔ ∃ row ∈ declaredBy (accepted ps), row.1 = name) ∧
    (warningsOf (accepted ps)).length + (registered ps).names.length = (declaredBy (accepted ps)).length := by
  obtain ⟨hplugins, hreachable, hrouted⟩ := recorded_registered ps
  have hperm := names_perm (registered ps)
  refine ⟨fun p => ?_, fun p qs h => of_refused h qs, hplugins, hreachable.nodup_families, hrouted.last,
    fun name template line => ?_, hperm.nodup_iff.2 hrouted.nodup, fun name => ?_, ?_⟩
  · rw [add_fails_iff, hplugins]
    simp only [List.mem_map, exists_exists_and_eq_and]
  · rw [route_eq_error_iff, hrouted.names]
    simp only [not_exists, not_and]
  · rw [hperm.mem_iff, hrouted.names]
  · rw [hperm.length_eq, List.length_map]
    exact hrouted.counted

/-- A family of which one name is that of a closing tag as well. -/
def collidingTag : TagPlugin where
  label := "colliding"
  family := "colliding"
  names := ["a", "enda"]
  readArgs _ _ _ := .ok .none
  render _ _ _ _ := return .text ""

theorem registered_last_declared_colliding :
    Fails ((registered [collidingTag]).add collidingTag) ∧
      registered [collidingTag, collidingTag] = registered [collidingTag] ∧
      (registered [collidingTag]).route? "enda" = some ⟨collidingTag, .closing⟩ ∧
      (warningsOf (accepted [collidingTag])).length = 1 := by
  obtain ⟨hfails, hrefused, -, -, hlast, -⟩ := registered_last_declared [collidingTag]
  have hfail : Fails ((registered [collidingTag]).add collidingTag) :=
    (hfails collidingTag).2 (.inl ⟨_, List.mem_singleton_self _, rfl⟩)
  refine ⟨hfail, (hrefused collidingTag [] hfail).1, (hlast _ _).2 ?_, by decide⟩
  exact ⟨[("a", ⟨collidingTag, .opening⟩), ("enda", ⟨collidingTag, .opening⟩)],
    [("endenda", ⟨collidingTag, .closing⟩)], rfl, by decide⟩

end TagRegistry

end TemplateEngine

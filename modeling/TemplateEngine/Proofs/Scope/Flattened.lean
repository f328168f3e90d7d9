/-
A scope as one mapping. A name is looked up from the nearest place on, and the first place that binds it counts, while
flattening starts from the outermost place and lets each nearer one replace what it binds. Both say the same of every
name, whatever it is bound to, and so do all views of a scope.

By induction on how a scope is made: what one more place does to a lookup, it does to the flattened scope.
-/
import Mathlib.Data.List.Nodup
import TemplateEngine.Proofs.Scope

namespace TemplateEngine

namespace Bindings

variable {a b : Bindings} {n : String} {v : Value}

/-- Each name is bound once, as in a mapping. -/
def Distinct (b : Bindings) : Prop :=
  (b.map (·.1)).Nodup

instance (b : Bindings) : Decidable b.Distinct :=
  inferInstanceAs (Decidable (b.map (·.1)).Nodup)

/-! ## Names and values -/

theorem value?_eq_none_iff : b.value? n = none ↔ n ∉ b.map (·.1) := by
  induction b with
  | nil => simp [value?]
  | cons e b ih =>
    obtain ⟨m, w⟩ := e
    rw [value?_cons, List.map_cons, List.mem_cons, not_or]
    by_cases hm : m = n
    · simp [hm]
    · rw [if_neg hm, ih]
      exact ⟨fun h => ⟨Ne.symm hm, h⟩, fun h => h.2⟩

theorem Distinct.value?_eq_some_iff (h : b.Distinct) : b.value? n = some v ↔ (n, v) ∈ b := by
  refine ⟨mem_of_value?, fun hmem => ?_⟩
  induction b with
  | nil => cases hmem
  | cons e b ih =>
    obtain ⟨m, w⟩ := e
    obtain ⟨hm, hb⟩ := List.nodup_cons.1 h
    rcases List.mem_cons.1 hmem with heq | hmem
    · cases heq
      exact value?_cons_self ..
    · have hne : m ≠ n := by
        rintro rfl
        exact hm (List.mem_map.2 ⟨_, hmem, rfl⟩)
      rw [value?_cons, if_neg hne, ih hb hmem]

/-! ## Binding anew -/

/-- A new name comes last, and an old one stays where it is. -/
theorem map_fst_insert (n : String) (v : Value) (b : Bindings) :
    (b.insert n v).map (·.1) = if n ∈ b.map (·.1) then b.map (·.1) else b.map (·.1) ++ [n] := by
  induction b with
  | nil => rfl
  | cons e b ih =>
    obtain ⟨m, w⟩ := e
    by_cases hm : m = n
    · simp [insert, hm]
    · rw [insert, if_neg (by simpa using hm), List.map_cons, ih]
      by_cases hmem : n ∈ b.map (·.1) <;> simp [hmem, Ne.symm hm]

theorem Distinct.insert (h : b.Distinct) (n : String) (v : Value) : (b.insert n v).Distinct := by
  unfold Distinct
  rw [map_fst_insert]
  split
  · exact h
  · rename_i hn
    rw [← List.concat_eq_append]
    exact List.Nodup.concat hn h

theorem Distinct.update (h : a.Distinct) (b : Bindings) : (a.update b).Distinct := by
  unfold Bindings.update
  induction b generalizing a with
  | nil => exact h
  | cons e b ih => exact ih (h.insert e.1 e.2)

/-- What is bound in `b` wins, as no later binding of `b` replaces it. -/
theorem Distinct.value?_update (h : b.Distinct) (a : Bindings) (n : String) :
    (a.update b).value? n = (b.value? n).or (a.value? n) := by
  induction b generalizing a with
  | nil => rfl
  | cons e b ih =>
    obtain ⟨m, w⟩ := e
    obtain ⟨hm, hb⟩ := List.nodup_cons.1 h
    have hstep : (Bindings.update a ((m, w) :: b)).value? n = (value? b n).or ((Bindings.insert m w a).value? n) := ih hb _
    rw [hstep, value?_insert, value?_cons]
    by_cases hmn : m = n
    · subst hmn
      rw [value?_eq_none_iff.2 hm, if_pos rfl, if_pos rfl]
      rfl
    · rw [if_neg hmn, if_neg hmn]

end Bindings

namespace Scope

variable {s s' : Scope}

/-! ## Scopes that are made of mappings -/

/-- A scope that is made of mappings, one around the other. -/
inductive Built : Scope → Prop
  | outermost {s : Scope} (hb : s.bindings.Distinct) (ho : s.outer = []) : Built s
  | inside {s s' : Scope} (h : Built s) (hb : s'.bindings.Distinct) (ho : s'.outer = s.chain) : Built s'

theorem Built.child (h : s.Built) {b : Bindings} (hb : b.Distinct) : (s.child b).Built :=
  .inside h hb rfl

theorem Built.distinct (h : s.Built) : ∀ b ∈ s.chain, b.Distinct := by
  induction h with
  | outermost hb ho =>
    rw [chain, ho]
    exact List.forall_mem_singleton.2 hb
  | inside h hb ho ih =>
    rw [chain, ho]
    exact List.forall_mem_cons.2 ⟨hb, ih⟩

/-! ## One more place -/

theorem resolve_of_outer (ho : s'.outer = s.chain) (n : String) :
    s'.resolve n = (s'.bindings.value? n).or (s.resolve n) := by
  rw [← resolve_child, resolve, resolve, chain, ho]
  rfl

theorem flatten_of_outer (ho : s'.outer = s.chain) : s'.flatten = s.flatten.update s'.bindings := by
  rw [flatten, chain, ho]
  rfl

/-! ## All places -/

theorem Built.distinct_flatten (h : s.Built) : s.flatten.Distinct := by
  induction h with
  | outermost hb ho =>
    rw [flatten, chain, ho]
    exact Bindings.Distinct.update (a := []) List.nodup_nil _
  | inside h hb ho ih =>
    rw [flatten_of_outer ho]
    exact ih.update _

/-- Looking a name up is looking it up in the flattened scope. -/
theorem Built.value?_flatten (h : s.Built) (n : String) : s.flatten.value? n = s.resolve n := by
  induction h with
  | @outermost s hb ho =>
    have hflat : s.flatten = Bindings.update [] s.bindings := by
      rw [flatten, chain, ho]
      rfl
    rw [hflat, hb.value?_update, resolve, chain, ho, List.findSome?_cons]
    cases s.bindings.value? n <;> rfl
  | inside h hb ho ih => rw [flatten_of_outer ho, hb.value?_update, ih, resolve_of_outer ho]

/-- The first place that binds a name counts, whatever is bound to it there and further out. -/
theorem resolve_of_nearest {inner outer : List Bindings} {b : Bindings} {n : String} {v : Value}
    (hc : s.chain = inner ++ b :: outer) (hinner : ∀ c ∈ inner, n ∉ c.map (·.1)) (hb : b.value? n = some v) :
    s.resolve n = some v := by
  have hnone : inner.findSome? (·.value? n) = none :=
    List.findSome?_eq_none_iff.2 fun c hcm => Bindings.value?_eq_none_iff.2 (hinner c hcm)
  rw [resolve, hc, List.findSome?_append, hnone, Option.none_or, List.findSome?_cons, hb]

/-- A scope and a mapping say the same of all names. -/
structure Shows (s : Scope) (all : Bindings) : Prop where
  distinct : all.Distinct
  found_iff : ∀ n, (s.resolve n).isSome = true ↔ n ∈ all.map (·.1)
  resolve_iff : ∀ n v, s.resolve n = some v ↔ (n, v) ∈ all
  lookup_bound : ∀ n v fallback, (n, v) ∈ all → s.lookup n fallback = .ok v
  lookup_fallback : ∀ n v, n ∉ all.map (·.1) → s.lookup n (some v) = .ok v
  lookup_unbound : ∀ n, n ∉ all.map (·.1) → s.lookup n none = .error (.foreign .key (Text.quoted n))
  contains_iff : ∀ v, s.contains v = true ↔ ∃ n ∈ all.map (·.1), v = .str n
  filters_bound : ∀ entries, (filtersName, .dict entries) ∈ all → s.filters = entries
  filters_unbound : (∀ entries, (filtersName, .dict entries) ∉ all) → s.filters = []
  /-- A nearer binding hides the ones further out, a binding to nothing too. -/
  nearest : ∀ inner b outer n v, s.chain = inner ++ b :: outer → (∀ c ∈ inner, n ∉ c.map (·.1)) → (n, v) ∈ b →
    (n, v) ∈ all

/-- A scope of any depth says of every name what its flattened mapping says, be it resolved, looked up or asked for, and
its filters are those that are bound there. -/
theorem shows_flatten (h : s.Built) : s.Shows s.flatten := by
  have hdistinct := h.distinct_flatten
  have hvalue := h.value?_flatten
  have hiff (n : String) (v : Value) : s.resolve n = some v ↔ (n, v) ∈ s.flatten := by
    rw [← hvalue, hdistinct.value?_eq_some_iff]
  have hnone {n : String} (hn : n ∉ s.flatten.map (·.1)) : s.resolve n = none := by
    rw [← hvalue, Bindings.value?_eq_none_iff.2 hn]
  have hfound (n : String) : (s.resolve n).isSome = true ↔ n ∈ s.flatten.map (·.1) := by
    rw [← hvalue, Option.isSome_iff_ne_none, Ne, Bindings.value?_eq_none_iff, not_not]
  refine
    { distinct := hdistinct, found_iff := hfound, resolve_iff := hiff, lookup_bound := ?_, lookup_fallback := ?_,
      lookup_unbound := ?_, contains_iff := ?_, filters_bound := ?_, filters_unbound := ?_, nearest := ?_ }
  · intro n v fallback hmem
    simp [lookup, (hiff n v).2 hmem]
  · intro n v hn
    simp [lookup, hnone hn]
  · intro n hn
    simp [lookup, hnone hn]
  · intro v
    cases v <;> simp [contains, hfound]
  · intro entries hmem
    simp [filters, (hiff _ _).2 hmem]
  · intro hunbound
    unfold filters
    split
    · rename_i entries hr
      exact absurd ((hiff _ _).1 hr) (hunbound entries)
    · rfl
  · intro inner b outer n v hc hinner hmem
    have hb : b.Distinct := h.distinct b (by rw [hc]; simp)
    exact (hiff n v).1 (resolve_of_nearest hc hinner (hb.value?_eq_some_iff.2 hmem))

/-- Two places inside of one with filters: the name that is bound to nothing has a value further out. -/
theorem shows_flatten_hidden :
    let root : Scope := { bindings := [(filtersName, .dict [(.str "shout", .int 3)]), ("a", .int 1), ("b", .int 2)] }
    let s := (root.child [("a", .none), ("b", .bool false)]).child [("c", .str ""), ("b", .int 4)]
    s.Built ∧ s.Shows s.flatten ∧ s.lookup "a" (some (.int 7)) = .ok .none ∧
      s.filters = [(.str "shout", .int 3)] ∧
      s.flatten.map (·.1) = [filtersName, "a", "b", "c"] := by
  intro root s
  have hroot : root.Built := .outermost (by decide) rfl
  have hbuilt : s.Built := (hroot.child (b := [("a", .none), ("b", .bool false)]) (by decide)).child (by decide)
  have hshows := shows_flatten hbuilt
  refine ⟨hbuilt, hshows, hshows.lookup_bound _ _ _ ?_, hshows.filters_bound _ ?_, rfl⟩
  · exact hshows.nearest [[("c", .str ""), ("b", .int 4)]] _ _ _ _ rfl (by decide) (List.mem_cons_self ..)
  · exact (hshows.resolve_iff _ _).1 rfl

end Scope

end TemplateEngine

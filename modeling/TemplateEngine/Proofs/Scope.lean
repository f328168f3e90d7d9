/-
Laws of bindings and scopes: a name means its last binding, and in an inner scope what it is bound to there, or else what
it means outside.
-/
import TemplateEngine.Scope

namespace TemplateEngine

namespace Bindings

theorem value?_cons (n : String) (v : Value) (b : Bindings) (m : String) :
    value? ((n, v) :: b) m = if n = m then some v else b.value? m := by
  unfold value?
  rw [List.find?_cons]
  by_cases h : n = m
  · have hb : (n == m) = true := by simpa using h
    rw [hb, if_pos h]
    rfl
  · have hb : (n == m) = false := by simpa using h
    rw [hb, if_neg h]

@[simp] theorem value?_cons_self (n : String) (v : Value) (b : Bindings) : value? ((n, v) :: b) n = some v := by
  rw [value?_cons, if_pos rfl]

theorem mem_of_value? {b : Bindings} {n : String} {v : Value} (h : b.value? n = some v) : (n, v) ∈ b := by
  obtain ⟨⟨m, w⟩, he, rfl⟩ := Option.map_eq_some_iff.1 h
  have hm : m = n := by simpa using List.find?_some he
  exact hm ▸ List.mem_of_find?_eq_some he

/-- What is bound after a name is bound anew. -/
theorem mem_insert {b : Bindings} {n : String} {v : Value} {e : String × Value} (h : e ∈ b.insert n v) :
    e = (n, v) ∨ e ∈ b := by
  induction b with
  | nil => exact .inl (List.mem_singleton.1 h)
  | cons e' b ih =>
    obtain ⟨m, w⟩ := e'
    rw [insert] at h
    split at h
    · rename_i hm
      rcases List.mem_cons.1 h with h | h
      · exact .inl (by rw [h, eq_of_beq hm])
      · exact .inr (List.mem_cons_of_mem _ h)
    · rcases List.mem_cons.1 h with h | h
      · exact .inr (h ▸ List.mem_cons_self)
      · exact (ih h).imp_right (List.mem_cons_of_mem _)

/-- A name that is bound anew means its new value, and all others mean what they did. -/
theorem value?_insert (n : String) (v : Value) (b : Bindings) (m : String) :
    (b.insert n v).value? m = if n = m then some v else b.value? m := by
  induction b with
  | nil => exact value?_cons n v [] m
  | cons e b ih =>
    obtain ⟨k, w⟩ := e
    by_cases hk : k = n
    · subst hk
      rw [insert, if_pos BEq.rfl, value?_cons, value?_cons]
      by_cases hm : k = m <;> simp [hm]
    · rw [insert, if_neg (by simpa using hk), value?_cons, ih, value?_cons]
      by_cases hm : k = m
      · rw [if_pos hm, if_pos hm, if_neg (fun h => hk (hm.trans h.symm))]
      · rw [if_neg hm, if_neg hm]

end Bindings

namespace Scope

theorem resolve_child (s : Scope) (b : Bindings) (n : String) :
    (s.child b).resolve n = (b.value? n).or (s.resolve n) := by
  show (b :: s.chain).findSome? (·.value? n) = _
  rw [List.findSome?_cons]
  cases b.value? n <;> rfl

theorem settle_congr {s s' : Scope} (hl : s'.level = s.level) (hu : s'.inUse = s.inUse) : s'.settle = s.settle := by
  funext v
  unfold settle
  rw [hl, hu]

/-- A filter is found through the reserved name alone. -/
theorem filter?_congr {s s' : Scope} (h : s'.resolve filtersName = s.resolve filtersName) (n : String) :
    s'.filter? n = s.filter? n := by
  unfold filter? filters
  rw [h]

end Scope

end TemplateEngine

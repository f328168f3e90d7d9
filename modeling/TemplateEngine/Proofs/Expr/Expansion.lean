/-
Bound names and the expressions whose values they have. Where a name is bound to the value of an expression, the expression
may as well stand in its place: the same comes out, but for the `nan`s that the evaluation makes.
-/
import TemplateEngine.Proofs.Expr.Substitution

namespace TemplateEngine

namespace Expr

/-- The expression with another one in place of a name. -/
def replace (e : Expr) (x : String) (d : Expr) : Expr :=
  e.subst fun n => if n = x then d else .name n

mutual

/-- Names in place of themselves. -/
theorem subst_name : ∀ e : Expr, e.subst .name = e
  | literal _ => rfl
  | name _ => rfl
  | member target _ => by rw [subst, subst_name target]
  | item target key => by rw [subst, subst_name target, subst_name key]
  | call function args => by rw [subst, subst_name function, substAll_name args]
  | unary _ operand => by rw [subst, subst_name operand]
  | binary _ left right => by rw [subst, subst_name left, subst_name right]
  | logical _ left right => by rw [subst, subst_name left, subst_name right]
  | not operand => by rw [subst, subst_name operand]
  | compare _ left right => by rw [subst, subst_name left, subst_name right]
  | conditional body condition orElse => by rw [subst, subst_name body, subst_name condition, subst_name orElse]
  | list items => by rw [subst, substAll_name items]
  | dict entries => by rw [subst, substEntries_name entries]
  | filter value _ args => by rw [subst, subst_name value, substAll_name args]

theorem substAll_name : ∀ es : List Expr, substAll .name es = es
  | [] => rfl
  | e :: es => by rw [substAll, subst_name e, substAll_name es]

theorem substEntries_name : ∀ es : List (Expr × Expr), substEntries .name es = es
  | [] => rfl
  | (k, v) :: es => by rw [substEntries, subst_name k, subst_name v, substEntries_name es]

end

end Expr

/-- What the names of a scope mean was made outside of the scope. -/
def Scope.Settled (s : Scope) : Prop :=
  ∀ n v, s.resolve n = some v → v.Before s.level

/-- A name means something that is bound in some place. -/
theorem Scope.exists_of_resolve {s : Scope} {n : String} {v : Value} (h : s.resolve n = some v) :
    ∃ b ∈ s.chain, (n, v) ∈ b := by
  obtain ⟨b, hb, hvalue⟩ := List.exists_of_findSome?_eq_some h
  exact ⟨b, hb, Bindings.mem_of_value? hvalue⟩

/-- Two values are the same but for the `nan`s that were made at a level or above: where one has such a `nan` at several
places, so has the other. -/
def Value.Alike (level : Nat) (v w : Value) : Prop :=
  ∃ σ : Renaming, σ.Fixes level ∧ w = v.rename σ

namespace Value.Alike

variable {level : Nat} {v w : Value}

theorem outputText_eq (h : Alike level v w) : w.outputText = v.outputText := by
  obtain ⟨σ, -, rfl⟩ := h
  exact outputText_rename σ v

theorem eq_of_before (h : Alike level v w) (hv : v.Before level) : w = v := by
  obtain ⟨σ, hσ, rfl⟩ := h
  exact hv.rename_eq hσ

theorem before (h : Alike level v w) (hw : w.Before level) : v.Before level := by
  obtain ⟨σ, hσ, rfl⟩ := h
  intro m hm
  by_contra hnot
  exact hσ.not_before hnot (hw (σ m) (hm.rename σ))

end Value.Alike

namespace Evaluator

variable {ev : Evaluator} {s : Scope} {x : String} {d e : Expr} {v w : Value}

/-- A name means something that was made outside of the scope, or it means nothing in any scope with the same bindings. -/
theorem nameValue_before (hs : s.Settled) {n : String} (h : ev.nameValue s n = .ok v) : v.Before s.level := by
  unfold nameValue at h
  cases hr : s.resolve n with
  | some w =>
    rw [hr] at h
    cases h
    exact hs n v hr
  | none =>
    rw [hr] at h
    dsimp only [missing] at h
    split at h
    · cases h
    · cases h
      nofun

theorem nameValue_alike (hs : s.Settled) {r : Except Failure Value} {n : String} (h : r = ev.nameValue s n) :
    Fails (ev.nameValue s n) ∧ Fails r ∨ ∃ v, v.Before s.level ∧ ev.nameValue s n = .ok v ∧ r = .ok v := by
  subst h
  cases hn : ev.nameValue s n with
  | ok v => exact .inr ⟨v, nameValue_before hs hn, rfl, rfl⟩
  | error e => exact .inl ⟨⟨e, rfl⟩, e, rfl⟩

/-- While more is in use the scope gives the same to names. -/
theorem side_held (hs : s.Settled) {held : List Value} (hheld : s.inUse ⊆ held) :
    Side ev .name s.level (Equiv.refl Mark) s { s with inUse := held } where
  fixes := Renaming.fixes_refl _
  level_le := Nat.le_refl _
  level_le' := Nat.le_refl _
  inUse u hu := by
    rw [Value.rename_refl]
    exact hheld hu
  filter _ := rfl
  names n held' _ := nameValue_alike hs (by rw [eval]; rfl)

/-- A value without new `nan`s comes out whatever else is in use. -/
theorem eval_held (hp : ev.host.Pure) (hs : s.Settled) (hd : ev.eval s d = .ok v) (hv : v.Before s.level)
    {held : List Value} (hheld : s.inUse ⊆ held) : ev.eval { s with inUse := held } d = .ok v := by
  have hside : Side ev .name s.level (Equiv.refl Mark) s { s with inUse := held } := side_held hs hheld
  have htracks := tracks_eval hp (fun _ => rfl) d hside
  rw [Expr.subst_name, hd] at htracks
  obtain ⟨h, -⟩ | ⟨w, τ, hw, hw', hτ⟩ := htracks
  · exact absurd h (not_fails_ok v)
  · cases hw
    rw [hw', hv.rename_eq hτ.fixes]

/-- The scope in which a name is bound to the value of an expression, and the one in which the expression stands for it. -/
theorem side_child (hp : ev.host.Pure) (hs : s.Settled) (hx : x ≠ Scope.filtersName) (hd : ev.eval s d = .ok v)
    (hv : v.Before s.level) : Side ev (fun n => if n = x then d else .name n) s.level (Equiv.refl Mark)
      (s.child [(x, v)]) s where
  fixes := Renaming.fixes_refl _
  level_le := Nat.le_succ _
  level_le' := Nat.le_refl _
  inUse u hu := by
    rw [Value.rename_refl]
    exact hu
  filter n := by
    refine Scope.filter?_congr ?_ n
    rw [Scope.resolve_child, Bindings.value?_cons, if_neg hx]
    rfl
  names n held hheld := by
    have hresolve : (s.child [(x, v)]).resolve n = if x = n then some v else s.resolve n := by
      rw [Scope.resolve_child, Bindings.value?_cons]
      split <;> rfl
    by_cases hn : n = x
    · -- the expression stands for the name at places where other values are held
      subst hn
      rw [if_pos rfl]
      refine .inr ⟨v, hv, ?_, eval_held hp hs hd hv hheld⟩
      rw [nameValue, hresolve, if_pos rfl]
    · have hname : ev.nameValue (s.child [(x, v)]) n = ev.nameValue s n := by
        rw [nameValue, nameValue, hresolve, if_neg (Ne.symm hn)]
      rw [if_neg hn, hname]
      exact nameValue_alike hs (by rw [eval]; rfl)

/-- An expression that is put in place of a name bound to its value. -/
theorem tracks_replace (hp : ev.host.Pure) (hs : s.Settled) (hx : x ≠ Scope.filtersName) (hshown : d.isShown = true)
    (hd : ev.eval s d = .ok v) (hv : v.Before s.level) (e : Expr) :
    Tracks Value.rename s.level s.inUse (Equiv.refl Mark) (ev.eval (s.child [(x, v)]) e) (ev.eval s (e.replace x d)) := by
  refine tracks_eval hp (fun n => ?_) e (side_child hp hs hx hd hv)
  split
  · exact hshown
  · rfl

theorem exists_replaced (hp : ev.host.Pure) (hs : s.Settled) (hx : x ≠ Scope.filtersName) (hshown : d.isShown = true)
    (hd : ev.eval s d = .ok v) (hv : v.Before s.level) (hw : ev.eval (s.child [(x, v)]) e = .ok w) :
    ∃ w', ev.eval s (e.replace x d) = .ok w' ∧ w.Alike s.level w' := by
  obtain ⟨h, -⟩ | ⟨a, τ, ha, ha', hτ⟩ := tracks_replace hp hs hx hshown hd hv e
  · rw [hw] at h
    exact absurd h (not_fails_ok w)
  · cases hw.symm.trans ha
    exact ⟨_, ha', τ, hτ.fixes, rfl⟩

theorem exists_bound (hp : ev.host.Pure) (hs : s.Settled) (hx : x ≠ Scope.filtersName) (hshown : d.isShown = true)
    (hd : ev.eval s d = .ok v) (hv : v.Before s.level) {w' : Value} (hw : ev.eval s (e.replace x d) = .ok w') :
    ∃ w, ev.eval (s.child [(x, v)]) e = .ok w ∧ w.Alike s.level w' := by
  obtain ⟨-, h⟩ | ⟨a, τ, ha, ha', hτ⟩ := tracks_replace hp hs hx hshown hd hv e
  · rw [hw] at h
    exact absurd h (not_fails_ok w')
  · cases hw.symm.trans ha'
    exact ⟨a, ha, τ, hτ.fixes, rfl⟩

end Evaluator

end TemplateEngine

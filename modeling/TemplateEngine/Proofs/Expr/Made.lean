/-
What evaluation makes. An operation that tells marks apart at most has none in its result but those of its operands, so that
all `nan`s of a value that an expression has are bound in its scope, or were made at the level of the scope.
-/
import TemplateEngine.Proofs.Expr.Expansion

namespace TemplateEngine

variable {level : Nat}

namespace Value

/-! ## Values that stay -/

/-- A value that stays when any marks but older ones are changed has older marks only: a newer one could be changed for one
that the value does not have. -/
theorem before_of_rename_eq {v : Value} (h : ∀ σ : Renaming, σ.Fixes level → v.rename σ = v) : v.Before level := by
  intro m hm
  by_contra hnot
  -- the mark is exchanged for one that the value does not have
  let next : Mark := .made level (indexBoundOfItems level [v])
  have hfixes : Renaming.Fixes level (Equiv.swap m next) := by
    intro k hk
    refine Equiv.swap_apply_of_ne_of_ne ?_ ?_
    · rintro rfl
      exact hnot hk
    · rintro rfl
      exact Nat.lt_irrefl level hk
  have hnext := hm.rename (Equiv.swap m next)
  rw [h _ hfixes, rename_nan, Equiv.swap_apply_left] at hnext
  exact not_has_next (List.mem_singleton_self v) hnext

theorem before_of_map_eq {ε : Type} {r : Except ε Value} {v : Value} (hv : r = .ok v)
    (h : ∀ σ : Renaming, σ.Fixes level → rename σ <$> r = r) : v.Before level := by
  refine before_of_rename_eq fun σ hσ => ?_
  have hstays := h σ hσ
  rw [hv] at hstays
  exact Except.ok.inj hstays

theorem map_rename_eq {vs : List Value} (hvs : ∀ v ∈ vs, v.Before level) {σ : Renaming} (hσ : σ.Fixes level) :
    vs.map (rename σ) = vs :=
  (List.map_congr_left fun v hv => (hvs v hv).rename_eq hσ).trans (List.map_id vs)

theorem Before.mono {level' : Nat} {v : Value} (h : v.Before level) (hle : level ≤ level') : v.Before level' :=
  fun m hm => (h m hm).mono hle

/-! ## Parts -/

theorem Before.list {vs : List Value} (h : ∀ v ∈ vs, v.Before level) : (list vs).Before level := by
  intro m hm
  cases hm with
  | listItem hv hm => exact h _ hv m hm

theorem Before.tuple {vs : List Value} (h : ∀ v ∈ vs, v.Before level) : (tuple vs).Before level := by
  intro m hm
  cases hm with
  | tupleItem hv hm => exact h _ hv m hm

theorem Before.dict {es : List (Value × Value)} (h : ∀ e ∈ es, e.1.Before level ∧ e.2.Before level) :
    (dict es).Before level := by
  intro m hm
  cases hm with
  | key he hm => exact (h _ he).1 m hm
  | value he hm => exact (h _ he).2 m hm

theorem before_str (s : String) : (str s).Before level := by
  rintro m ⟨⟩

end Value

namespace Scope

variable {s : Scope}

/-! ## Scopes -/

theorem Settled.holding (hs : s.Settled) (v : Value) : (s.holding v).Settled :=
  hs

/-- A new `nan` is made at the level of the scope. -/
theorem before_settle {v : Value} (hv : v.Before (s.level + 1)) : (s.settle v).Before (s.level + 1) := by
  unfold settle
  cases v with
  | float x =>
    show (if x.isNaN then Value.nan (.made s.level _) else .float x).Before (s.level + 1)
    split
    · rintro m ⟨⟩
      exact Nat.lt_succ_self s.level
    · exact hv
  | _ => exact hv

end Scope

namespace Evaluator

variable {ev : Evaluator}

/-! ## Expressions -/

theorem describe_eq_ok {error : Fault → EvalError} {r : Except Failure Value} {v : Value} :
    describe error r = .ok v ↔ r = .ok v := by
  cases r with
  | ok w => rfl
  | error e => cases e <;> simp [describe]

theorem before_apply (hp : ev.host.Pure) {f v : Value} {vs : List Value} (hvs : ∀ w ∈ vs, w.Before level)
    (h : f.apply ev.host vs = .ok v) : v.Before level := by
  refine Value.before_of_map_eq h fun σ hσ => ?_
  rw [← f.apply_rename hp (hσ.mono (Nat.zero_le level)), Value.map_rename_eq hvs hσ]

mutual

/-- What an expression has as its value was made outside of the scope, or at its level. -/
theorem eval_before (hp : ev.host.Pure) : ∀ (e : Expr) {s : Scope} {v : Value}, s.Settled → ev.eval s e = .ok v →
    v.Before (s.level + 1)
  | .literal l, s, v, hs, h => by
    cases h
    cases l <;> nofun
  | .name n, s, v, hs, h => (nameValue_before hs h).mono (Nat.le_succ _)
  | .member target n, s, v, hs, h => by
    rw [eval] at h
    obtain ⟨t, ht, h⟩ := bind_eq_ok.1 h
    refine Value.before_of_map_eq h fun σ hσ => ?_
    rw [← memberOf_rename σ ev (hp.attributes σ (hσ.mono (Nat.zero_le _))), (eval_before hp target hs ht).rename_eq hσ]
  | .item target key, s, v, hs, h => by
    rw [eval] at h
    obtain ⟨t, ht, h⟩ := bind_eq_ok.1 h
    obtain ⟨k, hk, h⟩ := bind_eq_ok.1 h
    refine Value.before_of_map_eq h fun σ hσ => ?_
    rw [← itemOf_rename, (eval_before hp target hs ht).rename_eq hσ, (eval_before hp key (hs.holding t) hk).rename_eq hσ]
  | .call function args, s, v, hs, h => by
    rw [eval] at h
    obtain ⟨f, -, h⟩ := bind_eq_ok.1 h
    split at h
    · rename_i c
      obtain ⟨vs, hvs, h⟩ := bind_eq_ok.1 h
      obtain ⟨shown, -, h⟩ := bind_eq_ok.1 h
      obtain ⟨w, hw, rfl⟩ := map_eq_ok.1 h
      have hcall : (Value.callable c).apply ev.host vs = .ok w := describe_eq_ok.1 hw
      exact Scope.before_settle (before_apply hp (evalAll_before hp args hs hvs) hcall)
    · exact absurd h shown_ne_ok
  | .unary op operand, s, v, hs, h => by
    rw [eval] at h
    obtain ⟨w, hw, h⟩ := bind_eq_ok.1 h
    obtain ⟨x, hx, rfl⟩ := map_eq_ok.1 h
    refine Scope.before_settle (Value.before_of_map_eq hx fun σ hσ => ?_)
    rw [← applyUnary_rename, (eval_before hp operand hs hw).rename_eq hσ]
  | .binary op left right, s, v, hs, h => by
    rw [eval] at h
    obtain ⟨l, hl, h⟩ := bind_eq_ok.1 h
    obtain ⟨r, hr, h⟩ := bind_eq_ok.1 h
    obtain ⟨x, hx, rfl⟩ := map_eq_ok.1 h
    refine Scope.before_settle (Value.before_of_map_eq (applyBinary_eq_ok.1 hx) fun σ hσ => ?_)
    rw [← Value.result_rename, (eval_before hp left hs hl).rename_eq hσ,
      (eval_before hp right (hs.holding l) hr).rename_eq hσ]
  | .logical op left right, s, v, hs, h => by
    rw [eval] at h
    obtain ⟨l, hl, h⟩ := bind_eq_ok.1 h
    have hleft := eval_before hp left hs hl
    cases op <;> dsimp only at h <;> split at h
    · exact eval_before hp right hs h
    · exact Except.ok.inj h ▸ hleft
    · exact Except.ok.inj h ▸ hleft
    · exact eval_before hp right hs h
  | .not operand, s, v, hs, h => by
    rw [eval] at h
    obtain ⟨w, -, h⟩ := bind_eq_ok.1 h
    cases h
    nofun
  | .compare op left right, s, v, hs, h => by
    rw [eval] at h
    obtain ⟨l, -, h⟩ := bind_eq_ok.1 h
    obtain ⟨r, -, h⟩ := bind_eq_ok.1 h
    obtain ⟨b, -, rfl⟩ := applyCompare_eq_ok.1 h
    nofun
  | .conditional body condition orElse, s, v, hs, h => by
    rw [eval] at h
    obtain ⟨c, -, h⟩ := bind_eq_ok.1 h
    split at h
    · exact eval_before hp body hs h
    · exact eval_before hp orElse hs h
  | .list items, s, v, hs, h => by
    rw [eval] at h
    obtain ⟨vs, hvs, h⟩ := bind_eq_ok.1 h
    cases h
    exact .list (evalAll_before hp items hs hvs)
  | .dict entries, s, v, hs, h => by
    rw [eval] at h
    obtain ⟨es, hes, h⟩ := bind_eq_ok.1 h
    cases h
    exact .dict (evalEntries_before hp entries hs (List.forall_mem_nil _) hes)
  | .filter value n args, s, v, hs, h => by
    rw [eval] at h
    split at h
    · cases h
    · obtain ⟨w, hw, h⟩ := bind_eq_ok.1 h
      obtain ⟨vs, hvs, h⟩ := bind_eq_ok.1 h
      obtain ⟨x, hx, rfl⟩ := map_eq_ok.1 h
      have hall : ∀ u ∈ w :: vs, u.Before (s.level + 1) :=
        List.forall_mem_cons.2 ⟨eval_before hp value hs hw, evalAll_before (s := s.holding w) hp args hs hvs⟩
      exact Scope.before_settle (before_apply hp hall (describe_eq_ok.1 hx))

theorem evalAll_before (hp : ev.host.Pure) : ∀ (es : List Expr) {s : Scope} {vs : List Value}, s.Settled →
    ev.evalAll s es = .ok vs → ∀ v ∈ vs, v.Before (s.level + 1)
  | [], s, vs, hs, h => by
    cases h
    nofun
  | e :: es, s, vs, hs, h => by
    rw [evalAll] at h
    obtain ⟨w, hw, h⟩ := bind_eq_ok.1 h
    obtain ⟨ws, hws, h⟩ := bind_eq_ok.1 h
    cases h
    exact List.forall_mem_cons.2 ⟨eval_before hp e hs hw, evalAll_before (s := s.holding w) hp es hs hws⟩

theorem evalEntries_before (hp : ev.host.Pure) : ∀ (es : List (Expr × Expr)) {s : Scope} {done all : List (Value × Value)},
    s.Settled → (∀ e ∈ done, e.1.Before (s.level + 1) ∧ e.2.Before (s.level + 1)) → ev.evalEntries s done es = .ok all →
    ∀ e ∈ all, e.1.Before (s.level + 1) ∧ e.2.Before (s.level + 1)
  | [], s, done, all, hs, hdone, h => by
    cases h
    exact hdone
  | (key, value) :: es, s, done, all, hs, hdone, h => by
    rw [evalEntries] at h
    obtain ⟨k, hk, h⟩ := bind_eq_ok.1 h
    obtain ⟨v, hv, h⟩ := bind_eq_ok.1 h
    have hnewKey : k.Before (s.level + 1) := eval_before hp key hs hk
    have hnewValue : v.Before (s.level + 1) := eval_before (s := s.holding k) hp value hs hv
    split at h
    · refine evalEntries_before (s := (s.holding k).holding v) hp es hs (fun e he => ?_) h
      obtain ⟨hkey, hvalue⟩ := mem_insertEntry he
      constructor
      · obtain hkey | ⟨e', he', hkey⟩ := hkey
        · exact hkey ▸ hnewKey
        · exact hkey ▸ (hdone e' he').1
      · obtain hvalue | ⟨e', he', hvalue⟩ := hvalue
        · exact hvalue ▸ hnewValue
        · exact hvalue ▸ (hdone e' he').2
    · exact absurd h shown_ne_ok

end

end Evaluator

end TemplateEngine

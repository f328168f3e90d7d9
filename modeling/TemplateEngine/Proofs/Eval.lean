/-
What the value of an expression depends on. Of a scope it is what the names mean, the level and the values
in use, and where the strict policy finds a value the lenient one finds the same: it asks for nothing of
`none`, and what is not there is a failure.
-/
import TemplateEngine.Eval
import TemplateEngine.Proofs.Result
import TemplateEngine.Proofs.Scope

namespace TemplateEngine

theorem liftFault_eq_error {α : Type} {r : Except Fault α} {failure : Failure} (h : liftFault r = .error failure) :
    ∃ f, r = .error f ∧ failure = .fault f := by
  cases r with
  | ok a => cases h
  | error f =>
    cases h
    exact ⟨f, rfl, rfl⟩

/-! ## Scopes in which names mean the same -/

/-- Two scopes are the same to expressions. -/
structure Scope.Agree (s s' : Scope) : Prop where
  resolve : ∀ n, s'.resolve n = s.resolve n
  level : s'.level = s.level
  inUse : s'.inUse = s.inUse

namespace Scope.Agree

variable {s s' : Scope}

theorem refl (s : Scope) : s.Agree s :=
  ⟨fun _ => rfl, rfl, rfl⟩

theorem symm (h : s.Agree s') : s'.Agree s :=
  ⟨fun n => (h.resolve n).symm, h.level.symm, h.inUse.symm⟩

/-- A place without bindings of its own changes nothing. -/
theorem child_nil (s : Scope) : s.Agree (s.child []) :=
  ⟨fun _ => rfl, rfl, rfl⟩

theorem trans {s'' : Scope} (h : s.Agree s') (h' : s'.Agree s'') : s.Agree s'' :=
  ⟨fun n => (h'.resolve n).trans (h.resolve n), h'.level.trans h.level, h'.inUse.trans h.inUse⟩

theorem child (h : s.Agree s') (b : Bindings) : (s.child b).Agree (s'.child b) where
  resolve n := by rw [resolve_child, resolve_child, h.resolve]
  level := congrArg (· + b.length) h.level
  inUse := h.inUse

theorem holding (h : s.Agree s') (v : Value) : (s.holding v).Agree (s'.holding v) :=
  ⟨h.resolve, h.level, congrArg (v :: ·) h.inUse⟩

theorem settle (h : s.Agree s') : s'.settle = s.settle :=
  settle_congr h.level h.inUse

theorem filter? (h : s.Agree s') (n : String) : s'.filter? n = s.filter? n :=
  filter?_congr (h.resolve filtersName) n

end Scope.Agree

namespace Evaluator

/-- No attribute of `none` is there. -/
def BareNone (ev : Evaluator) : Prop :=
  ∀ n, ev.host.attributes .none n = .missing

/-- An evaluator gives the values that another one gives: it has the same policy, or the other one is strict and reads no
attribute of `none`. -/
structure Extends (ev' ev : Evaluator) : Prop where
  host : ev'.host = ev.host
  undefined : ev'.undefined = ev.undefined ∨ ev.undefined = .strict ∧ ev.BareNone

theorem Extends.refl (ev : Evaluator) : ev.Extends ev :=
  ⟨rfl, .inl rfl⟩

variable {ev ev' : Evaluator} {s s' : Scope} {v : Value}

/-! ## Names, members and items -/

theorem missing_ne_ok (hev : ev.undefined = .strict) (e : EvalError) : ev.missing e ≠ .ok v := by
  unfold missing
  rw [hev]
  nofun

theorem Extends.missing (hev : ev'.Extends ev) {e : EvalError} (h : ev.missing e = .ok v) :
    ev'.missing e = .ok v := by
  obtain hu | ⟨hu, -⟩ := hev.undefined
  · unfold Evaluator.missing at h ⊢
    rwa [hu]
  · exact absurd h (missing_ne_ok hu e)

theorem Extends.nameValue (hev : ev'.Extends ev) (hs : s.Agree s') {n : String} (h : ev.nameValue s n = .ok v) :
    ev'.nameValue s' n = .ok v := by
  unfold Evaluator.nameValue at h ⊢
  rw [hs.resolve]
  cases hr : s.resolve n with
  | some w =>
    rw [hr] at h
    exact h
  | none =>
    rw [hr] at h
    exact hev.missing h

theorem passesNone_of_strict (hev : ev.undefined = .strict) (target : Value) : ev.passesNone target = false := by
  unfold passesNone
  rw [hev]

theorem passesNone_of_ne {target : Value} (h : target ≠ .none) : ev.passesNone target = false := by
  unfold passesNone
  split
  · exact absurd rfl h
  · rfl

/-- The strict policy reads no member of `none`. -/
theorem memberOf_none (hev : ev.undefined = .strict) (hnone : ev.BareNone) (n : String) :
    ev.memberOf .none n ≠ .ok v := by
  have hmember : Value.member ev.host.attributes .none n = .missing := hnone n
  unfold memberOf
  rw [passesNone_of_strict hev, hmember]
  exact missing_ne_ok hev _

theorem Extends.memberOf (hev : ev'.Extends ev) {target : Value} {n : String} (h : ev.memberOf target n = .ok v) :
    ev'.memberOf target n = .ok v := by
  obtain hu | ⟨hu, hnone⟩ := hev.undefined
  · unfold Evaluator.memberOf Evaluator.passesNone Evaluator.missing at h ⊢
    rwa [hu, hev.host]
  · -- only for `none` do the policies part before the member is looked up
    have hne : target ≠ .none := by
      rintro rfl
      exact memberOf_none hu hnone n h
    unfold Evaluator.memberOf at h ⊢
    rw [passesNone_of_ne hne] at h ⊢
    rw [hev.host]
    cases hr : target.member ev.host.attributes n with
    | found w =>
      rw [hr] at h
      exact h
    | missing =>
      rw [hr] at h
      exact hev.missing h
    | failed f =>
      rw [hr] at h
      exact h

/-- A failure that shows a value is none the less a failure. -/
theorem shown_ne_ok {α : Type} {r : Except Failure String} {k : String → Failure} {a : α} :
    (do let shown ← r; (.error (k shown) : Except Failure α)) ≠ .ok a := by
  intro h
  obtain ⟨shown, -, h₁⟩ := bind_eq_ok.1 h
  cases h₁

/-- The strict policy reads an item only where there is one. -/
theorem itemOf_strict (hev : ev.undefined = .strict) {target key : Value} (h : ev.itemOf target key = .ok v) :
    target.readItem key = .found v := by
  unfold itemOf at h
  rw [passesNone_of_strict hev, if_neg Bool.false_ne_true] at h
  cases hr : target.readItem key with
  | found w =>
    rw [hr] at h
    cases h
    rfl
  | missing =>
    rw [hr, hev] at h
    exact absurd h shown_ne_ok
  | failed f =>
    rw [hr] at h
    obtain ⟨shown, -, h₁⟩ := bind_eq_ok.1 h
    cases f <;> cases h₁

theorem Extends.itemOf (hev : ev'.Extends ev) {target key : Value} (h : ev.itemOf target key = .ok v) :
    ev'.itemOf target key = .ok v := by
  obtain hu | ⟨hu, -⟩ := hev.undefined
  · unfold Evaluator.itemOf Evaluator.passesNone at h ⊢
    rwa [hu]
  · have hr := itemOf_strict hu h
    have hne : target ≠ .none := by
      rintro rfl
      cases hr
    unfold Evaluator.itemOf
    rw [passesNone_of_ne hne, if_neg Bool.false_ne_true, hr]

/-! ## Expressions -/

/-- The value that one evaluator gives an expression is the one that another one gives it. -/
def Carries (ev ev' : Evaluator) (e : Expr) : Prop :=
  ∀ s s' v, s.Agree s' → ev.eval s e = .ok v → ev'.eval s' e = .ok v

/-- The values of a row of expressions are carried over. -/
def CarriesAll (ev ev' : Evaluator) (es : List Expr) : Prop :=
  ∀ s s' vs, s.Agree s' → ev.evalAll s es = .ok vs → ev'.evalAll s' es = .ok vs

/-- The entries of a mapping expression are carried over. -/
def CarriesEntries (ev ev' : Evaluator) (es : List (Expr × Expr)) : Prop :=
  ∀ s s' done vs, s.Agree s' → ev.evalEntries s done es = .ok vs → ev'.evalEntries s' done es = .ok vs

mutual

theorem eval_extends (hev : ev'.Extends ev) : ∀ e : Expr, Carries ev ev' e
  | .literal l => fun s s' v _ h => h
  | .name n => fun s s' v hs h => by
    rw [eval] at h ⊢
    exact hev.nameValue hs h
  | .member target n => fun s s' v hs h => by
    rw [eval] at h ⊢
    obtain ⟨t, ht, h₁⟩ := bind_eq_ok.1 h
    rw [eval_extends hev target s s' t hs ht]
    exact hev.memberOf h₁
  | .item target key => fun s s' v hs h => by
    rw [eval] at h ⊢
    obtain ⟨t, ht, h₁⟩ := bind_eq_ok.1 h
    obtain ⟨k, hk, h₂⟩ := bind_eq_ok.1 h₁
    rw [eval_extends hev target s s' t hs ht, ok_bind, eval_extends hev key _ _ k (hs.holding t) hk]
    exact hev.itemOf h₂
  | .call function args => fun s s' v hs h => by
    rw [eval] at h ⊢
    obtain ⟨f, hf, h₁⟩ := bind_eq_ok.1 h
    rw [eval_extends hev function s s' f hs hf, ok_bind]
    cases f with
    | callable c =>
      obtain ⟨vs, hvs, h₂⟩ := bind_eq_ok.1 h₁
      dsimp only
      rw [evalAll_extends hev args s s' vs hs hvs, hs.settle, hev.host]
      exact h₂
    | _ => exact absurd h₁ shown_ne_ok
  | .unary op operand => fun s s' v hs h => by
    rw [eval] at h ⊢
    obtain ⟨w, hw, h₁⟩ := bind_eq_ok.1 h
    rw [eval_extends hev operand s s' w hs hw, hs.settle]
    exact h₁
  | .binary op left right => fun s s' v hs h => by
    rw [eval] at h ⊢
    obtain ⟨l, hl, h₁⟩ := bind_eq_ok.1 h
    obtain ⟨r, hr, h₂⟩ := bind_eq_ok.1 h₁
    rw [eval_extends hev left s s' l hs hl, ok_bind, eval_extends hev right _ _ r (hs.holding l) hr, hs.settle, hev.host]
    exact h₂
  | .logical op left right => fun s s' v hs h => by
    rw [eval] at h ⊢
    obtain ⟨l, hl, h₁⟩ := bind_eq_ok.1 h
    rw [eval_extends hev left s s' l hs hl, ok_bind]
    -- the right side has a value to carry over only where the left one does not settle the matter
    cases op <;> cases ht : l.truthy <;> simp only [ht, if_true, Bool.false_eq_true, if_false] at h₁ ⊢
    · exact h₁
    · exact eval_extends hev right s s' v hs h₁
    · exact eval_extends hev right s s' v hs h₁
    · exact h₁
  | .not operand => fun s s' v hs h => by
    rw [eval] at h ⊢
    obtain ⟨w, hw, h₁⟩ := bind_eq_ok.1 h
    rw [eval_extends hev operand s s' w hs hw]
    exact h₁
  | .compare op left right => fun s s' v hs h => by
    rw [eval] at h ⊢
    obtain ⟨l, hl, h₁⟩ := bind_eq_ok.1 h
    obtain ⟨r, hr, h₂⟩ := bind_eq_ok.1 h₁
    rw [eval_extends hev left s s' l hs hl, ok_bind, eval_extends hev right _ _ r (hs.holding l) hr]
    exact h₂
  | .conditional body condition orElse => fun s s' v hs h => by
    rw [eval] at h ⊢
    obtain ⟨c, hc, h₁⟩ := bind_eq_ok.1 h
    rw [eval_extends hev condition s s' c hs hc, ok_bind]
    cases ht : c.truthy <;> simp only [ht, if_true, Bool.false_eq_true, if_false] at h₁ ⊢
    · exact eval_extends hev orElse s s' v hs h₁
    · exact eval_extends hev body s s' v hs h₁
  | .list items => fun s s' v hs h => by
    rw [eval] at h ⊢
    obtain ⟨vs, hvs, h₁⟩ := bind_eq_ok.1 h
    rw [evalAll_extends hev items s s' vs hs hvs]
    exact h₁
  | .dict entries => fun s s' v hs h => by
    rw [eval] at h ⊢
    obtain ⟨vs, hvs, h₁⟩ := bind_eq_ok.1 h
    rw [evalEntries_extends hev entries s s' [] vs hs hvs]
    exact h₁
  | .filter value n args => fun s s' v hs h => by
    rw [eval] at h ⊢
    rw [hs.filter?]
    cases hf : s.filter? n with
    | none =>
      rw [hf] at h
      cases h
    | some f =>
      rw [hf] at h
      obtain ⟨w, hw, h₁⟩ := bind_eq_ok.1 h
      obtain ⟨vs, hvs, h₂⟩ := bind_eq_ok.1 h₁
      dsimp only
      rw [eval_extends hev value s s' w hs hw, ok_bind, evalAll_extends hev args _ _ vs (hs.holding w) hvs, hs.settle,
        hev.host]
      exact h₂

theorem evalAll_extends (hev : ev'.Extends ev) : ∀ es : List Expr, CarriesAll ev ev' es
  | [] => fun s s' vs _ h => h
  | e :: es => fun s s' vs hs h => by
    rw [evalAll] at h ⊢
    obtain ⟨v, hv, h₁⟩ := bind_eq_ok.1 h
    obtain ⟨ws, hws, h₂⟩ := bind_eq_ok.1 h₁
    rw [eval_extends hev e s s' v hs hv, ok_bind, evalAll_extends hev es _ _ ws (hs.holding v) hws]
    exact h₂

theorem evalEntries_extends (hev : ev'.Extends ev) : ∀ es : List (Expr × Expr), CarriesEntries ev ev' es
  | [] => fun s s' done vs _ h => h
  | (key, value) :: rest => fun s s' done vs hs h => by
    rw [evalEntries] at h ⊢
    obtain ⟨k, hk, h₁⟩ := bind_eq_ok.1 h
    obtain ⟨v, hv, h₂⟩ := bind_eq_ok.1 h₁
    rw [eval_extends hev key s s' k hs hk, ok_bind, eval_extends hev value _ _ v (hs.holding k) hv, ok_bind]
    cases hc : k.checkKey with
    | ok u =>
      rw [hc] at h₂
      exact evalEntries_extends hev rest _ _ _ vs ((hs.holding k).holding v) h₂
    | error f =>
      rw [hc] at h₂
      exact absurd h₂ shown_ne_ok

end

end Evaluator

end TemplateEngine

/-
Renders that give what other renders give. Where the first of two renders succeeds, so does the second, with
a related result, whatever they have asked of the loader before. The built-in families go along with this, so
that it carries over from the environment and the children of a tag to the tag.
-/
import TemplateEngine.Proofs.Eval
import TemplateEngine.Proofs.Template.Relation

namespace TemplateEngine

variable {α β γ δ : Type}

/-! ## Renders -/

/-- The result of a render after some requests. -/
def Render.resultAfter (r : Render α) (calls : List LoaderCall) : Except Failure α :=
  ((ExceptT.run r).run calls).1

/-- Where the first render succeeds, the second one does so after any requests, with a related result. -/
def Refines (R : α → β → Prop) (r : Render α) (r' : Render β) : Prop :=
  ∀ calls a, r.resultAfter calls = .ok a → ∃ b, R a b ∧ ∀ calls', r'.resultAfter calls' = .ok b

theorem resultAfter_bind_eq_ok {r : Render α} {k : α → Render β} {calls : List LoaderCall} {b : β} :
    (r >>= k).resultAfter calls = .ok b ↔
      ∃ a, r.resultAfter calls = .ok a ∧ (k a).resultAfter ((ExceptT.run r).run calls).2 = .ok b := by
  unfold Render.resultAfter
  rw [ExceptT.run_bind, StateT.run_bind]
  rcases (ExceptT.run r).run calls with ⟨result, calls'⟩
  cases result with
  | ok a =>
    constructor
    · exact fun h => ⟨a, rfl, h⟩
    · rintro ⟨_, ⟨⟩, h⟩
      exact h
  | error failure =>
    constructor
    · exact fun h => nomatch h
    · rintro ⟨_, h, -⟩
      cases h

theorem resultAfter_bind_eq_error {r : Render α} {k : α → Render β} {calls : List LoaderCall} {failure : Failure} :
    (r >>= k).resultAfter calls = .error failure ↔ r.resultAfter calls = .error failure ∨
      ∃ a, r.resultAfter calls = .ok a ∧ (k a).resultAfter ((ExceptT.run r).run calls).2 = .error failure := by
  unfold Render.resultAfter
  rw [ExceptT.run_bind, StateT.run_bind]
  rcases (ExceptT.run r).run calls with ⟨result, calls'⟩
  cases result with
  | ok a =>
    constructor
    · exact fun h => .inr ⟨a, rfl, h⟩
    · rintro (h | ⟨_, ⟨⟩, h⟩)
      · cases h
      · exact h
  | error e =>
    constructor
    · exact fun h => .inl (by cases h; rfl)
    · rintro (h | ⟨_, h, -⟩)
      · cases h
        rfl
      · cases h

theorem refines_pure {R : α → β → Prop} {a : α} {b : β} (h : R a b) : Refines R (pure a) (pure b) := by
  rintro calls a' ⟨⟩
  exact ⟨b, h, fun _ => rfl⟩

/-- A render that never succeeds refines to any other one. -/
theorem refines_throw {R : α → β → Prop} {failure : Failure} {r : Render β} : Refines R (throw failure) r := by
  intro calls a h
  cases h

theorem refines_bind {R : α → β → Prop} {Q : γ → δ → Prop} {r : Render α} {r' : Render β} {k : α → Render γ}
    {k' : β → Render δ} (hr : Refines R r r') (hk : ∀ a b, R a b → Refines Q (k a) (k' b)) :
    Refines Q (r >>= k) (r' >>= k') := by
  intro calls c h
  obtain ⟨a, ha, hc⟩ := resultAfter_bind_eq_ok.1 h
  obtain ⟨b, hab, hb⟩ := hr calls a ha
  obtain ⟨d, hcd, hd⟩ := hk a b hab _ c hc
  exact ⟨d, hcd, fun calls' => resultAfter_bind_eq_ok.2 ⟨b, hb calls', hd _⟩⟩

theorem refines_ofResult {r r' : Except Failure α} (h : ∀ a, r = .ok a → r' = .ok a) :
    Refines Eq (Render.ofResult r) (Render.ofResult r') := by
  intro calls a ha
  exact ⟨a, rfl, fun _ => h a ha⟩

theorem refines_ofResult_self (r : Except Failure α) : Refines Eq (Render.ofResult r) (Render.ofResult r) :=
  refines_ofResult fun _ h => h

/-- The description of faults changes no success. -/
theorem resultAfter_describeTag_eq_ok {name : String} {t : Tag} {r : Render String} {calls : List LoaderCall}
    {text : String} : (describeTag name t r).resultAfter calls = .ok text ↔ r.resultAfter calls = .ok text := by
  unfold Render.resultAfter
  rw [run_describeTag]
  exact mapError_eq_ok

theorem refines_describeTag {name name' : String} {t t' : Tag} {r r' : Render String} (h : Refines Eq r r') :
    Refines Eq (describeTag name t r) (describeTag name' t' r') := by
  intro calls text ht
  obtain ⟨_, rfl, h'⟩ := h calls text (resultAfter_describeTag_eq_ok.1 ht)
  exact ⟨text, rfl, fun calls' => resultAfter_describeTag_eq_ok.2 (h' calls')⟩

/-! ## What a tag is given -/

/-- Where the first services succeed, the second ones do so in a scope that is the same to expressions; the
templates that include another one may have names that are related. -/
structure Services.Refine (names : String → String → Prop) (S S' : Services) : Prop where
  evaluate : ∀ e s s' v, s.Agree s' → S.evaluate e s = .ok v → S'.evaluate e s' = .ok v
  renderInclude : ∀ id s s' base base', s.Agree s' → names base base' →
    Refines Eq (S.renderInclude id s base) (S'.renderInclude id s' base')

/-- The relation of refinement. Scopes are those that are the same to expressions; names and lines of places
do not matter, as they are for failures. -/
def refinement : RenderRelation where
  Holds := Refines
  Scopes := Scope.Agree
  Names _ _ := True
  Lines _ _ := True
  holds_pure := refines_pure
  holds_throw _ := refines_throw
  holds_bind := refines_bind
  scopes_child h b := h.child b
  scopes_holding h v := h.holding v
  holds_describeTag _ _ _ h := refines_describeTag h

theorem Services.Refine.related {names : String → String → Prop} {S S' : Services} (h : S.Refine names S') :
    refinement.Services names S S' where
  evaluate e s s' hs := refines_ofResult fun v => h.evaluate e s s' v hs
  renderInclude := h.renderInclude

/-- An output gives the text of the value of its expression. -/
theorem resultAfter_outputText_eq_ok {S : Services} {name source : String} {line : Nat} {s : Scope}
    {calls : List LoaderCall} {text : String} :
    (outputText S name source line s).resultAfter calls = .ok text ↔
      ∃ e v, Expr.read source = .ok e ∧ S.evaluate e s = .ok v ∧ v.outputText = .ok text := by
  have hvalue : (do
      let e ← (Expr.read source).mapError Failure.ofRead
      let v ← S.evaluate e s
      liftFault v.outputText : Except Failure String) = .ok text ↔
        ∃ e v, Expr.read source = .ok e ∧ S.evaluate e s = .ok v ∧ v.outputText = .ok text := by
    constructor
    · intro h
      obtain ⟨e, he, h₁⟩ := bind_eq_ok.1 h
      obtain ⟨v, hv, h₂⟩ := bind_eq_ok.1 h₁
      exact ⟨e, v, mapError_eq_ok.1 he, hv, mapError_eq_ok.1 h₂⟩
    · rintro ⟨e, v, he, hv, ht⟩
      exact bind_eq_ok.2 ⟨e, mapError_eq_ok.2 he, bind_eq_ok.2 ⟨v, hv, mapError_eq_ok.2 ht⟩⟩
  rw [← hvalue]
  -- a failure is described, and remains one
  unfold outputText
  dsimp only
  split <;> rename_i h <;> rw [h]
  · rfl
  · exact ⟨nofun, nofun⟩
  · exact ⟨nofun, nofun⟩
  · exact ⟨nofun, nofun⟩
  · exact ⟨nofun, nofun⟩

/-- The text of an output depends on its source alone: the name and the line are for its faults. -/
theorem refines_outputText {names : String → String → Prop} {S S' : Services} (hS : S.Refine names S') {s s' : Scope}
    (hs : s.Agree s') (name name' source : String) (line line' : Nat) :
    Refines Eq (outputText S name source line s) (outputText S' name' source line' s') := by
  intro calls text h
  obtain ⟨e, v, he, hv, ht⟩ := resultAfter_outputText_eq_ok.1 h
  exact ⟨text, rfl, fun _ => resultAfter_outputText_eq_ok.2 ⟨e, v, he, hS.evaluate e s s' v hs hv, ht⟩⟩

end TemplateEngine

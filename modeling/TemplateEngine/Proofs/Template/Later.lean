/-
Renders of what stands on later lines. They give the same text and ask the loader for the same, or they fail in
the same way, where a place in the template may be further down. Whatever was asked of the loader before does not
matter.
-/
import TemplateEngine.Proofs.Template.Reread

namespace TemplateEngine

/-! ## Failures -/

/-- A place some lines further down. -/
def Location.later (k : Nat) (l : Location) : Location :=
  { l with line := l.line + k }

/-- An error the place of which, if it has one, is some lines further down. -/
def EvalError.later (k : Nat) : EvalError → EvalError
  | located l e => located (l.later k) e
  | outputSource l source e => outputSource (l.later k) source e
  | outputFault l source f => outputFault (l.later k) source f
  | tagFault l tag f => tagFault (l.later k) tag f
  | e => e

/-- A failure the place of which, if it has one, is some lines further down. -/
def Failure.later (k : Nat) : Failure → Failure
  | evaluation e => evaluation (e.later k)
  | failure => failure

/-- The place that a failure of an output or a tag names. -/
def Failure.place? : Failure → Option Location
  | evaluation (.located l _) => some l
  | evaluation (.outputSource l _ _) => some l
  | evaluation (.outputFault l _ _) => some l
  | evaluation (.tagFault l _ _) => some l
  | _ => none

/-- A line is the same or, if it is not above line `c`, `k` lines further down. -/
def Moved (c k line line' : Nat) : Prop :=
  line' = line ∨ (c ≤ line ∧ line' = line + k)

/-- Two failures that are the same, but for a place that may be `k` lines further down if it is not above line `c`. -/
def Failure.Moved (c k : Nat) (f f' : Failure) : Prop :=
  f' = f ∨ ∃ l, f.place? = some l ∧ c ≤ l.line ∧ f' = f.later k

/-- So they are also where a tag has described them. -/
theorem Failure.Moved.atTag {c k : Nat} {f f' : Failure} (h : f.Moved c k f') {name : String} {t t' : Tag}
    (hl : TemplateEngine.Moved c k t.line t'.line) (hm : t'.markup = t.markup) :
    (f.atTag name t).Moved c k (f'.atTag name t') := by
  rcases h with rfl | ⟨l, hplace, hc, rfl⟩
  · cases f' with
    | fault f =>
      rcases hl with hl | ⟨hc, hl⟩
      · exact .inl (by rw [Failure.atTag, Failure.atTag, hl, hm])
      · exact .inr ⟨⟨name, t.line⟩, rfl, hc, by rw [Failure.atTag, Failure.atTag, hl, hm]; rfl⟩
    | template e => exact .inl rfl
    | expression e => exact .inl rfl
    | evaluation e => exact .inl rfl
    | load e => exact .inl rfl
  · -- only errors that are described already have a place
    cases f with
    | evaluation e => exact .inr ⟨l, hplace, hc, rfl⟩
    | _ => cases hplace

/-! ## Renders -/

/-- Two results that are related, or two failures that are the same but for a place that may be further down. -/
inductive ResultsMatch {α β : Type} (c k : Nat) (R : α → β → Prop) : Except Failure α → Except Failure β → Prop
  | ok {a : α} {b : β} (h : R a b) : ResultsMatch c k R (.ok a) (.ok b)
  | error {f f' : Failure} (h : f.Moved c k f') : ResultsMatch c k R (.error f) (.error f')

/-- After any requests the two renders make the same further ones, and their results match. -/
def Matches {α β : Type} (c k : Nat) (R : α → β → Prop) (r : Render α) (r' : Render β) : Prop :=
  ∀ calls calls', ∃ more,
    ((ExceptT.run r).run calls).2 = calls ++ more ∧ ((ExceptT.run r').run calls').2 = calls' ++ more ∧
    ResultsMatch c k R ((ExceptT.run r).run calls).1 ((ExceptT.run r').run calls').1

section

variable {α β γ δ : Type} {c k : Nat}

theorem matches_ofResult {R : α → β → Prop} {r : Except Failure α} {r' : Except Failure β}
    (h : ResultsMatch c k R r r') : Matches c k R (Render.ofResult r) (Render.ofResult r') :=
  fun calls calls' => ⟨[], (List.append_nil calls).symm, (List.append_nil calls').symm, h⟩

theorem matches_bind {R : α → β → Prop} {Q : γ → δ → Prop} {r : Render α} {r' : Render β} {f : α → Render γ}
    {f' : β → Render δ} (hr : Matches c k R r r') (hf : ∀ a b, R a b → Matches c k Q (f a) (f' b)) :
    Matches c k Q (r >>= f) (r' >>= f') := by
  intro calls calls'
  obtain ⟨more, hmore, hmore', hresult⟩ := hr calls calls'
  rw [ExceptT.run_bind, ExceptT.run_bind, StateT.run_bind, StateT.run_bind]
  rcases hrun : (ExceptT.run r).run calls with ⟨result, after⟩
  rcases hrun' : (ExceptT.run r').run calls' with ⟨result', after'⟩
  rw [hrun] at hmore hresult
  rw [hrun'] at hmore' hresult
  subst hmore hmore'
  cases hresult with
  | ok h =>
    obtain ⟨further, hfurther, hfurther', hresult⟩ := hf _ _ h (calls ++ more) (calls' ++ more)
    rw [List.append_assoc] at hfurther hfurther'
    exact ⟨more ++ further, hfurther, hfurther', hresult⟩
  | error h => exact ⟨more, rfl, rfl, .error h⟩

theorem matches_describeTag {name : String} {t t' : Tag} {r r' : Render String} (hl : Moved c k t.line t'.line)
    (hm : t'.markup = t.markup) (h : Matches c k Eq r r') :
    Matches c k Eq (describeTag name t r) (describeTag name t' r') := by
  intro calls calls'
  obtain ⟨more, hmore, hmore', hresult⟩ := h calls calls'
  rw [run_describeTag, run_describeTag]
  refine ⟨more, hmore, hmore', ?_⟩
  generalize ((ExceptT.run r).run calls).1 = result at hresult
  generalize ((ExceptT.run r').run calls').1 = result' at hresult
  cases hresult with
  | ok h => exact .ok h
  | error h => exact .error (h.atTag hl hm)

end

/-- The relation of renders on lines of which some are further down. -/
def matching (c k : Nat) : RenderRelation where
  Holds := Matches c k
  Scopes := Eq
  Names := Eq
  Lines := Moved c k
  holds_pure h := matches_ofResult (.ok h)
  holds_throw failure := matches_ofResult (.error (.inl rfl))
  holds_bind := matches_bind
  scopes_child h b := by rw [h]
  scopes_holding h v := by rw [h]
  holds_describeTag := by
    rintro name _ t t' r r' rfl
    exact matches_describeTag

/-! ## Rows -/

section

variable {c k : Nat} {S : Services}

/-- An output on a later line fails there. -/
theorem matches_outputText (name source : String) {line line' : Nat} (hl : Moved c k line line') (s : Scope) :
    Matches c k Eq (outputText S name source line s) (outputText S name source line' s) := by
  refine matches_ofResult ?_
  split
  · exact .ok rfl
  all_goals
    refine .error ?_
    rcases hl with rfl | ⟨hc, rfl⟩
    · exact .inl rfl
    · first
      | exact .inr ⟨⟨name, line⟩, rfl, hc, rfl⟩
      | exact .inl rfl

/-- Rows that render alike on lines of which some are further down, with tags of the families that go along. -/
def matchingRows (c k : Nat) (S : Services) (hS : (matching c k).Services Eq S S) : RowCongruence where
  Rows := (matching c k).Rows S S
  Names := Eq
  Lines := Moved c k
  Families := (matching c k).Follows Eq
  nil := RenderRelation.rows_nil
  append := RenderRelation.rows_append
  text := RenderRelation.rows_text
  output := by
    intro source line line' hl
    refine RenderRelation.rows_singleton rfl ?_
    rintro name _ s _ selector rfl rfl
    rw [renderBlock, renderBlock]
    exact matches_outputText name source hl s
  tag hp ht hc := RenderRelation.rows_tag hS hp ht hc

end

end TemplateEngine

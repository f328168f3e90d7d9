/-
Relations between renders that go along with how renders are put together: out of texts, failures, and one
render after the other. The built-in families go along with every such relation, as they put the text of a
tag together out of the values of its expressions and the texts of its children, and rows of blocks do so too.
-/
import TemplateEngine.Proofs.Template.Render
import TemplateEngine.Environment.Basic

namespace TemplateEngine

/-- A relation between renders for each relation between their results, with the scopes, the names of templates
and the lines that may take each other's place. -/
structure RenderRelation where
  Holds : {α β : Type} → (α → β → Prop) → Render α → Render β → Prop
  Scopes : Scope → Scope → Prop
  Names : String → String → Prop
  Lines : Nat → Nat → Prop
  holds_pure {α β : Type} {R : α → β → Prop} {a : α} {b : β} (h : R a b) : Holds R (pure a) (pure b)
  holds_throw {α β : Type} {R : α → β → Prop} (failure : Failure) : Holds R (throw failure) (throw failure)
  holds_bind {α β γ δ : Type} {R : α → β → Prop} {Q : γ → δ → Prop} {r : Render α} {r' : Render β}
    {k : α → Render γ} {k' : β → Render δ} (hr : Holds R r r') (hk : ∀ a b, R a b → Holds Q (k a) (k' b)) :
    Holds Q (r >>= k) (r' >>= k')
  scopes_child {s s' : Scope} (h : Scopes s s') (b : Bindings) : Scopes (s.child b) (s'.child b)
  scopes_holding {s s' : Scope} (h : Scopes s s') (v : Value) : Scopes (s.holding v) (s'.holding v)
  /-- A fault is described in the same way, but for the place. -/
  holds_describeTag {name name' : String} {t t' : Tag} {r r' : Render String} (hn : Names name name')
    (hl : Lines t.line t'.line) (hm : t'.markup = t.markup) (h : Holds Eq r r') :
    Holds Eq (describeTag name t r) (describeTag name' t' r')

/-- Two tags that differ in nothing but their lines and the names of their templates. -/
structure Tag.Alike (names : String → String → Prop) (lines : Nat → Nat → Prop) (t t' : Tag) : Prop where
  name : t'.name = t.name
  role : t'.role = t.role
  signature : t'.signature = t.signature
  args : t'.args = t.args
  line : lines t.line t'.line
  template : names t.template t'.template

theorem Tag.Alike.markup {names : String → String → Prop} {lines : Nat → Nat → Prop} {t t' : Tag}
    (h : t.Alike names lines t') : t'.markup = t.markup := by
  rw [Tag.markup, Tag.markup, h.name, h.signature]

/-- Nothing is left to differ in. -/
theorem Tag.Alike.eq {t t' : Tag} (h : t.Alike Eq Eq t') : t = t' := by
  obtain ⟨hname, hrole, hsignature, hargs, hline, htemplate⟩ := h
  cases t
  cases t'
  simp only [Tag.mk.injEq]
  exact ⟨hname.symm, hrole.symm, hsignature.symm, hargs.symm, hline, htemplate⟩

namespace RenderRelation

variable (ρ : RenderRelation) {α β γ δ : Type}

theorem holds_map {R : α → β → Prop} {Q : γ → δ → Prop} {r : Render α} {r' : Render β} {f : α → γ} {g : β → δ}
    (hr : ρ.Holds R r r') (hf : ∀ a b, R a b → Q (f a) (g b)) : ρ.Holds Q (f <$> r) (g <$> r') := by
  rw [map_eq_pure_bind, map_eq_pure_bind]
  exact ρ.holds_bind hr fun a b hab => ρ.holds_pure (hf a b hab)

theorem holds_ofResult (r : Except Failure α) : ρ.Holds Eq (Render.ofResult r) (Render.ofResult r) := by
  cases r with
  | ok a => exact ρ.holds_pure rfl
  | error failure => exact ρ.holds_throw failure

/-! ## What a tag is given -/

/-- The values and the included templates of the one are those of the other. -/
structure Services (names : String → String → Prop) (S S' : TemplateEngine.Services) : Prop where
  evaluate : ∀ e s s', ρ.Scopes s s' →
    ρ.Holds Eq (Render.ofResult (S.evaluate e s)) (Render.ofResult (S'.evaluate e s'))
  renderInclude : ∀ id s s' base base', ρ.Scopes s s' → names base base' →
    ρ.Holds Eq (S.renderInclude id s base) (S'.renderInclude id s' base')

/-- The texts of the one are those of the other, in scopes that may take each other's place. -/
def Children (c c' : ChildrenRenderer) : Prop :=
  ∀ s s' selector choice, ρ.Scopes s s' → ρ.Holds Eq (c s selector choice) (c' s' selector choice)

/-- Two outcomes with one text or value, or with choices that are related for each selector. -/
inductive Outcomes : Outcome → Outcome → Prop
  | text (s : String) : Outcomes (.text s) (.text s)
  | choice {pick pick' : Selector → Render Produced} (h : ∀ selector, ρ.Holds Eq (pick selector) (pick' selector)) :
      Outcomes (.choice pick) (.choice pick')
  | other (v : Value) : Outcomes (.other v) (.other v)

/-- The outcomes of a family are related for tags that are alike and are given the same. -/
def Follows (names : String → String → Prop) (p : TagPlugin) : Prop :=
  ∀ t t' s s' S S' c c', t.Alike names ρ.Lines t' → ρ.Scopes s s' → ρ.Services names S S' → ρ.Children c c' →
    ρ.Holds ρ.Outcomes (p.render t s S c) (p.render t' s' S' c')

variable {ρ} {names : String → String → Prop} {t t' : Tag} {s s' : Scope} {S S' : TemplateEngine.Services}
  {c c' : ChildrenRenderer}

theorem Outcomes.resolve {o o' : Outcome} (h : ρ.Outcomes o o') (family : String) (selector : Selector) :
    ρ.Holds Eq (o.resolve family selector) (o'.resolve family selector) := by
  cases h with
  | text s => exact ρ.holds_pure rfl
  | choice h =>
    refine ρ.holds_bind (h selector) ?_
    rintro produced _ rfl
    cases produced with
    | text s => exact ρ.holds_pure rfl
    | other v => exact ρ.holds_throw _
  | other v => exact ρ.holds_throw _

theorem Outcomes.of_text {r r' : Render String} (h : ρ.Holds Eq r r') :
    ρ.Holds ρ.Outcomes (Outcome.text <$> r) (Outcome.text <$> r') :=
  ρ.holds_map h fun a b hab => by rw [hab]; exact .text b

theorem holds_produced {r r' : Render String} (h : ρ.Holds Eq r r') :
    ρ.Holds Eq (Produced.text <$> r) (Produced.text <$> r') :=
  ρ.holds_map h fun _ _ hab => congrArg _ hab

/-! ## The built-in families -/

section

variable (ht : t.Alike names ρ.Lines t') (hs : ρ.Scopes s s') (hS : ρ.Services names S S') (hc : ρ.Children c c')

include ht hs hS in
theorem holds_evaluate : ρ.Holds Eq (t.evaluate S s) (t'.evaluate S' s') := by
  unfold Tag.evaluate
  rw [ht.args]
  split
  · exact hS.evaluate _ s s' hs
  · exact ρ.holds_throw _

include ht hs hS hc

theorem holds_branch : ρ.Holds Eq (IfTag.branch t s S c) (IfTag.branch t' s' S' c') := by
  refine ρ.holds_bind (holds_evaluate ht hs hS) ?_
  rintro v _ rfl
  split
  · exact hc s s' _ _ hs
  · exact hc s s' _ _ hs

theorem holds_if : ρ.Holds ρ.Outcomes (IfTag.render t s S c) (IfTag.render t' s' S' c') := by
  unfold IfTag.render
  rw [ht.role]
  split
  · exact Outcomes.of_text (holds_branch ht hs hS hc)
  · refine ρ.holds_pure (.choice fun selector => ?_)
    unfold IfTag.pick
    rw [ht.name]
    split
    · exact ρ.holds_pure rfl
    · split
      · exact holds_produced (hc s s' _ _ hs)
      · exact holds_produced (holds_branch ht hs hS hc)

theorem holds_switch : ρ.Holds ρ.Outcomes (SwitchTag.render t s S c) (SwitchTag.render t' s' S' c') := by
  unfold SwitchTag.render
  rw [ht.role]
  split
  · refine ρ.holds_bind (holds_evaluate ht hs hS) ?_
    rintro v _ rfl
    exact Outcomes.of_text (hc s s' _ _ hs)
  · refine ρ.holds_pure (.choice fun selector => ?_)
    unfold SwitchTag.pick
    rw [ht.name, ht.markup]
    split
    · exact ρ.holds_pure rfl
    · split
      · exact holds_produced (hc s s' _ _ hs)
      · split
        · rename_i v _
          refine ρ.holds_bind (holds_evaluate ht (ρ.scopes_holding hs v) hS) ?_
          rintro candidates _ rfl
          refine ρ.holds_bind (ρ.holds_ofResult _) ?_
          rintro found _ rfl
          split
          · exact holds_produced (hc s s' _ _ hs)
          · exact holds_produced (hc s s' _ _ hs)
        · exact ρ.holds_throw _

omit ht hS in
/-- By induction on the items: each round goes on in a scope of its own. -/
theorem holds_rounds (target : String) (second : Option String) (length : Nat) (items : List Value) :
    ∀ index0, ρ.Holds Eq (ForTag.rounds target second s c length index0 items)
      (ForTag.rounds target second s' c' length index0 items) := by
  induction items with
  | nil => exact fun _ => ρ.holds_pure rfl
  | cons item items ih =>
    intro index0
    rw [ForTag.rounds, ForTag.rounds]
    refine ρ.holds_bind (ρ.holds_ofResult _) ?_
    rintro b _ rfl
    refine ρ.holds_bind (hc _ _ _ _ (ρ.scopes_child hs _)) ?_
    rintro text _ rfl
    refine ρ.holds_bind (ih _) ?_
    rintro rest _ rfl
    exact ρ.holds_pure rfl

theorem holds_for : ρ.Holds ρ.Outcomes (ForTag.render t s S c) (ForTag.render t' s' S' c') := by
  unfold ForTag.render
  rw [ht.role, ht.args]
  split
  · refine ρ.holds_pure (.choice fun selector => ?_)
    unfold ForTag.pick
    split
    · exact ρ.holds_pure rfl
    · exact holds_produced (hc s s' _ _ hs)
  · split
    · rename_i target second iterable _
      refine ρ.holds_bind (hS.evaluate _ s s' hs) ?_
      rintro v _ rfl
      refine ρ.holds_bind (ρ.holds_ofResult _) ?_
      rintro items _ rfl
      -- without items only the inside tags are told to render
      split
      · exact Outcomes.of_text (hc s s' _ _ hs)
      · exact Outcomes.of_text (holds_rounds hs hc target second _ items 0)
    · exact ρ.holds_throw _

theorem holds_with : ρ.Holds ρ.Outcomes (WithTag.render t s S c) (WithTag.render t' s' S' c') := by
  unfold WithTag.render
  rw [ht.args]
  split
  · refine ρ.holds_bind (hS.evaluate _ s s' hs) ?_
    rintro v _ rfl
    exact Outcomes.of_text (hc _ _ _ _ (ρ.scopes_child hs _))
  · exact ρ.holds_throw _

theorem holds_apply : ρ.Holds ρ.Outcomes (ApplyTag.render t s S c) (ApplyTag.render t' s' S' c') := by
  unfold ApplyTag.render
  refine ρ.holds_bind (hc s s' _ _ hs) ?_
  rintro body _ rfl
  refine ρ.holds_bind (holds_evaluate ht (ρ.scopes_child hs _) hS) ?_
  rintro v _ rfl
  exact Outcomes.of_text (ρ.holds_ofResult _)

omit hc in
theorem holds_include : ρ.Holds ρ.Outcomes (IncludeTag.render t s S c) (IncludeTag.render t' s' S' c') := by
  unfold IncludeTag.render
  refine ρ.holds_bind (holds_evaluate ht hs hS) ?_
  rintro v _ rfl
  refine ρ.holds_bind (ρ.holds_ofResult _) ?_
  rintro id _ rfl
  exact Outcomes.of_text (hS.renderInclude id s s' _ _ hs ht.template)

end

/-- A built-in family goes along with every relation. -/
theorem follows_of_builtin {p : TagPlugin} (hp : p ∈ builtinTags) : ρ.Follows names p := by
  intro t t' s s' S S' c c' ht hs hS hc
  simp only [builtinTags, List.mem_cons, List.not_mem_nil, or_false] at hp
  rcases hp with rfl | rfl | rfl | rfl | rfl | rfl
  · exact holds_if ht hs hS hc
  · exact holds_switch ht hs hS hc
  · exact holds_for ht hs hS hc
  · exact holds_with ht hs hS hc
  · exact holds_apply ht hs hS hc
  · show ρ.Holds _ (IncludeTag.render t s S c) (IncludeTag.render t' s' S' c')
    exact holds_include ht hs hS

/-! ## Rows of blocks -/

/-- Two rows whose texts are related, whichever of their blocks are rendered. -/
def Rows (ρ : RenderRelation) (S S' : TemplateEngine.Services) (bs bs' : List Block) : Prop :=
  ∀ name name' choice s s' selector, ρ.Names name name' → ρ.Scopes s s' →
    ρ.Holds Eq (renderBlocks S name choice bs s selector) (renderBlocks S' name' choice bs' s' selector)

variable {bs bs' cs cs' : List Block}

theorem rows_nil : ρ.Rows S S' [] [] := by
  intro name name' choice s s' selector hn hs
  rw [renderBlocks, renderBlocks]
  exact ρ.holds_pure rfl

theorem rows_singleton {b b' : Block} (hi : b'.isInside = b.isInside)
    (h : ∀ name name' s s' selector, ρ.Names name name' → ρ.Scopes s s' →
      ρ.Holds Eq (renderBlock S name b s selector) (renderBlock S' name' b' s' selector)) :
    ρ.Rows S S' [b] [b'] := by
  intro name name' choice s s' selector hn hs
  by_cases hb : choice = .all ∨ b.isInside = true
  · rw [renderBlocks_singleton hb, renderBlocks_singleton (by rwa [hi])]
    exact h name name' s s' selector hn hs
  · obtain ⟨hc, hb⟩ := not_or.1 hb
    have hskip : b.isInside = false := Bool.eq_false_iff.2 hb
    obtain rfl : choice = .insideTags := by cases choice <;> simp_all
    rw [renderBlocks_insideTags (by simpa using hskip), renderBlocks_insideTags (by simpa [hi] using hskip)]
    exact ρ.holds_pure rfl

theorem rows_append (hb : ρ.Rows S S' bs bs') (hc : ρ.Rows S S' cs cs') : ρ.Rows S S' (bs ++ cs) (bs' ++ cs') := by
  intro name name' choice s s' selector hn hs
  rw [renderBlocks_append, renderBlocks_append]
  refine ρ.holds_bind (hb name name' choice s s' selector hn hs) ?_
  rintro text _ rfl
  refine ρ.holds_bind (hc name name' choice s s' selector hn hs) ?_
  rintro rest _ rfl
  exact ρ.holds_pure rfl

theorem rows_text (s : String) : ρ.Rows S S' [.text s] [.text s] := by
  refine rows_singleton rfl fun name name' _ _ selector _ _ => ?_
  rw [renderBlock, renderBlock]
  exact ρ.holds_pure rfl

/-- A tag depends on its children through their texts alone. -/
theorem rows_tag (hS : ρ.Services names S S') {p : TagPlugin} (hp : ρ.Follows names p)
    (ht : t.Alike names ρ.Lines t') (hc : ρ.Rows S S' cs cs') : ρ.Rows S S' [.tag p t cs] [.tag p t' cs'] := by
  refine rows_singleton ?_ fun name name' s s' selector hn hs => ?_
  · rw [Block.isInside, Block.isInside, ht.role]
  · rw [renderBlock, renderBlock]
    refine ρ.holds_describeTag hn ht.line ht.markup (ρ.holds_bind (hp _ _ _ _ _ _ _ _ ht hs hS ?_) ?_)
    · exact fun s s' selector choice => hc name name' choice s s' selector hn
    · exact fun outcome outcome' ho => ho.resolve p.family selector

end RenderRelation

end TemplateEngine

/-
What one token does to a reader, context by context, and what a reader asks of the tags that it puts
into their places: an inside tag goes into an open tag of its family that is not a final one, and a
closing tag closes the branches of its family down to the opening one.
-/
import TemplateEngine.Proofs.Result
import TemplateEngine.Proofs.Template.Grammar

namespace TemplateEngine.Template

/-! ## Contexts -/

namespace Reader

/-- A reader that has come to a token and stands in some contexts after it. -/
def moved (r : Reader) (t : Token) (contexts : List Context) : Reader :=
  { r with contexts := ⟨contexts, t.line⟩ }

variable {registry : TagRegistry} {name : String} {r r' : Reader} {t : Token}

theorem step_content (h : r.contexts.contexts = [.content]) :
    step registry name r t = match t.kind with
      | .text => .ok ((r.moved t [.content]).add (.text t.value))
      | .delimiter .tagOpen => .ok (r.moved t [.tag, .content])
      | .delimiter .outputOpen => .ok (r.moved t [.expression, .content])
      | .delimiter .commentOpen => .ok (r.moved t [.comment, .content])
      | .delimiter _ => .error ⟨name, some t.line, .context (.unexpected t.value .content)⟩ := by
  cases hk : t.kind with
  | text => simp [step, ContextStack.feed, ContextStack.top, moved, h, hk]
  | delimiter d => cases d <;> simp [step, ContextStack.feed, ContextStack.top, move?, moved, h, hk]

theorem step_comment (h : r.contexts.contexts = [.comment, .content]) :
    step registry name r t =
      .ok (r.moved t (if t.kind = .delimiter .commentClose then [.content] else [.comment, .content])) := by
  cases hk : t.kind with
  | text => simp [step, ContextStack.feed, ContextStack.top, moved, h, hk]
  | delimiter d => cases d <;> simp [step, ContextStack.feed, ContextStack.top, move?, moved, h, hk]

theorem step_expression (h : r.contexts.contexts = [.expression, .content]) :
    step registry name r t = match t.kind with
      | .text => .ok { r.moved t [.expression, .content] with payload := some t }
      | .delimiter .outputClose => (r.moved t [.content]).addOutput name t
      | .delimiter _ => .error ⟨name, some t.line, .context (.unexpected t.value .expression)⟩ := by
  cases hk : t.kind with
  | text => simp [step, ContextStack.feed, ContextStack.top, moved, h, hk]
  | delimiter d => cases d <;> simp [step, ContextStack.feed, ContextStack.top, move?, moved, h, hk]

theorem step_tag (h : r.contexts.contexts = [.tag, .content]) :
    step registry name r t = match t.kind with
      | .text => .ok { r.moved t [.tag, .content] with payload := some t }
      | .delimiter .tagClose => (r.moved t [.content]).addTag registry name t
      | .delimiter _ => .error ⟨name, some t.line, .context (.unexpected t.value .tag)⟩ := by
  cases hk : t.kind with
  | text => simp [step, ContextStack.feed, ContextStack.top, moved, h, hk]
  | delimiter d => cases d <;> simp [step, ContextStack.feed, ContextStack.top, move?, moved, h, hk]

/-- Nothing is left open iff only the content is open and no tag is. -/
theorem finish_eq_ok {bs : List Block} :
    r.finish name = .ok bs ↔ r.contexts.depth = 1 ∧ r.openTags = [] ∧ bs = r.blocks.reverse := by
  unfold finish ContextStack.finish
  by_cases hd : r.contexts.depth = 1
  · cases ho : r.openTags with
    | nil =>
      simp only [hd, if_true, Except.ok.injEq, true_and]
      exact eq_comm
    | cons o rest => simp [hd]
  · simp [hd]

/-! ## Outputs and tags -/

/-- An output is taken in iff it has a payload that is not blank. -/
theorem addOutput_eq_ok :
    r.addOutput name t = .ok r' ↔ ∃ p, r.payload = some p ∧ Text.blank p.value = false ∧
      r' = { r with payload := none }.add (.output (Text.trim p.value) p.line) := by
  unfold addOutput
  cases hp : r.payload with
  | none => simp
  | some p =>
    cases hb : Text.blank p.value with
    | true => simp [hb]
    | false =>
      simp only [Bool.false_eq_true, if_false, Except.ok.injEq, Option.some.injEq, exists_eq_left', hb, true_and]
      exact eq_comm

/-- A tag is made iff its arguments can be read. -/
theorem makeTag_eq_ok {line : Nat} {route : TagRoute} {m : TagMarkup} {tag : Tag} :
    makeTag name line route m = .ok tag ↔ tag.markup = m ∧ tag.role = route.role ∧ tag.line = line ∧
      tag.template = name ∧ TagRoute.Reads route m tag.args := by
  obtain ⟨n, role, sig, args, l, tmpl⟩ := tag
  obtain ⟨mn, ms⟩ := m
  unfold makeTag TagRoute.Reads Tag.markup
  by_cases hc : route.role = .closing
  · simp only [hc, if_true, Except.ok.injEq, Tag.mk.injEq, TagMarkup.mk.injEq]
    constructor
    · rintro ⟨rfl, rfl, rfl, rfl, rfl, rfl⟩; exact ⟨⟨rfl, rfl⟩, rfl, rfl, rfl, rfl⟩
    · rintro ⟨⟨rfl, rfl⟩, rfl, rfl, rfl, rfl⟩; exact ⟨rfl, rfl, rfl, rfl, rfl, rfl⟩
  · simp only [hc, if_false]
    cases route.plugin.readArgs mn route.role ms with
    | error e => simp
    | ok a =>
      simp only [Except.ok.injEq, Tag.mk.injEq, TagMarkup.mk.injEq]
      constructor
      · rintro ⟨rfl, rfl, rfl, rfl, rfl, rfl⟩; exact ⟨⟨rfl, rfl⟩, rfl, rfl, rfl, rfl⟩
      · rintro ⟨⟨rfl, rfl⟩, rfl, rfl, rfl, rfl⟩; exact ⟨rfl, rfl, rfl, rfl, rfl, rfl⟩

/-- A tag is taken in iff its payload starts with a routed name, its arguments can be read and it fits
into its place. -/
theorem addTag_eq_ok :
    r.addTag registry name t = .ok r' ↔ ∃ p route tag, r.payload = some p ∧
      TagMarkup.ofPayload? p.value = some tag.markup ∧ registry.route? tag.name = some route ∧
      tag.role = route.role ∧ TagRoute.Reads route tag.markup tag.args ∧ tag.template = name ∧
      tag.line = p.line ∧ placeTag name route tag { r with payload := none } = .ok r' := by
  unfold addTag TagRegistry.route
  cases hp : r.payload with
  | none => simp
  | some p =>
    cases hm : TagMarkup.ofPayload? p.value with
    | none => simp [hm]
    | some m =>
      simp only [Option.map_some, Option.getD_some, Option.bind_some, hm]
      cases hr : registry.route? m.name with
      | none =>
        simp only [error_bind, reduceCtorEq, false_iff]
        rintro ⟨q, route, tag, hq, hq', hroute, -⟩
        cases hq
        cases hm.symm.trans hq'
        cases hr.symm.trans hroute
      | some route =>
        simp only [ok_bind]
        constructor
        · intro h
          cases ht : makeTag name p.line route m with
          | error e => rw [ht] at h; cases h
          | ok tag =>
            rw [ht] at h
            obtain ⟨rfl, h1, h2, h3, h4⟩ := makeTag_eq_ok.1 ht
            exact ⟨p, route, tag, rfl, hm, hr, h1, h4, h3, h2, h⟩
        · rintro ⟨q, route', tag, hq, hq', hroute, h1, h2, h3, h4, h⟩
          cases hq
          cases hm.symm.trans hq'
          cases hr.symm.trans hroute
          rw [makeTag_eq_ok.2 ⟨rfl, h1, h4, h3, h2⟩]
          exact h

/-! ## Places -/

/-- An inside tag of a family may be put below the innermost open tag: it is of that family and not
final. -/
def Admits (family : String) (stack : List OpenTag) : Prop :=
  ∃ o rest, stack = o :: rest ∧ o.plugin.family = family ∧
    ¬ (o.tag.role = .inside ∧ o.tag.name ∈ o.plugin.finalNames)

theorem placeTag_opening {p : TagPlugin} {tag : Tag} :
    placeTag name ⟨p, .opening⟩ tag r =
      .ok (if p.singular then r.add (.tag p tag []) else r.enter p tag) := by
  cases hs : p.singular <;> simp [placeTag, hs]

theorem placeTag_inside {p : TagPlugin} {tag : Tag} :
    placeTag name ⟨p, .inside⟩ tag r = .ok r' ↔ Admits p.family r.openTags ∧ r' = r.enter p tag := by
  unfold placeTag Admits
  cases hs : r.openTags with
  | nil => simp
  | cons o rest =>
    by_cases hf : o.plugin.family = p.family
    · by_cases hl : o.tag.role = .inside ∧ o.tag.name ∈ o.plugin.finalNames
      · simp [hf, hl]
      · simp only [hf, hl, bne_self_eq_false, Bool.false_eq_true, if_false, Except.ok.injEq]
        constructor
        · rintro rfl; exact ⟨⟨o, rest, rfl, hf, hl⟩, rfl⟩
        · rintro ⟨-, rfl⟩; rfl
    · simp [hf]

theorem placeTag_closing {p : TagPlugin} {tag : Tag} :
    placeTag name ⟨p, .closing⟩ tag r = .ok r' ↔ ∃ stack blocks,
      closeFamily? p.family r.openTags r.blocks = some (stack, blocks) ∧
        r' = { r with openTags := stack, blocks := blocks } := by
  unfold placeTag
  cases hc : closeFamily? p.family r.openTags r.blocks with
  | none => simp
  | some s =>
    obtain ⟨stack, blocks⟩ := s
    simp only [Except.ok.injEq, Option.some.injEq, Prod.mk.injEq]
    constructor
    · rintro rfl; exact ⟨stack, blocks, ⟨rfl, rfl⟩, rfl⟩
    · rintro ⟨_, _, ⟨rfl, rfl⟩, rfl⟩; rfl

/-! ## Open branches -/

/-- Opens the tags of branches, one after the other, on top of a stack of open tags and the blocks of
its innermost one. -/
def opened (s : List OpenTag × List Block) (branches : List Branch) : List OpenTag × List Block :=
  branches.foldl (fun s b => (⟨b.plugin, b.tag, s.2⟩ :: s.1, b.body.reverse)) s

@[simp] theorem opened_nil (s : List OpenTag × List Block) : opened s [] = s := rfl

@[simp] theorem opened_concat (s : List OpenTag × List Block) (branches : List Branch) (b : Branch) :
    opened s (branches ++ [b]) = (⟨b.plugin, b.tag, (opened s branches).2⟩ :: (opened s branches).1, b.body.reverse) := by
  simp [opened]

theorem opened_cons_ne_nil (s : List OpenTag × List Block) (b : Branch) (branches : List Branch) :
    (opened s (b :: branches)).1 ≠ [] := by
  rcases branches.eq_nil_or_concat' with rfl | ⟨branches, c, rfl⟩
  · nofun
  · rw [← List.cons_append, opened_concat]
    nofun

/-- The innermost open tag of a block is of its family. -/
theorem family_of_opened {s : List OpenTag × List Block} {b : Branch} {branches : List Branch}
    (hi : ∀ c ∈ branches, c.plugin.family = b.plugin.family) {o : OpenTag} {rest : List OpenTag}
    (ho : (opened s (b :: branches)).1 = o :: rest) : o.plugin.family = b.plugin.family := by
  rcases branches.eq_nil_or_concat' with rfl | ⟨branches, c, rfl⟩
  · cases ho
    rfl
  · rw [← List.cons_append, opened_concat] at ho
    cases ho
    exact hi c (by simp)

/-- Closing the branches of a block leaves them nested into each other before what was read last. -/
theorem closeFamily?_opened {family : String} {stack : List OpenTag} {before : List Block} {b : Branch}
    (hb : b.tag.role = .opening) (hf : b.plugin.family = family) (branches : List Branch)
    (hi : ∀ c ∈ branches, c.tag.role = .inside ∧ c.plugin.family = family) (inner : List Block) :
    closeFamily? family (opened (stack, before) (b :: branches)).1
        (inner.reverse ++ (opened (stack, before) (b :: branches)).2) =
      some (stack, b.block (branches.foldr (fun c inner => [c.block inner]) inner) :: before) := by
  induction branches using List.reverseRecOn generalizing inner with
  | nil => simp [opened, closeFamily?, hb, hf, Branch.block]
  | append_singleton branches c ih =>
    obtain ⟨hr, hc⟩ := hi c (by simp)
    have := ih (fun d hd => hi d (by simp [hd])) [c.block inner]
    rw [← List.cons_append, opened_concat, closeFamily?]
    simpa [hr, hc, Branch.block] using this

end Reader

end TemplateEngine.Template

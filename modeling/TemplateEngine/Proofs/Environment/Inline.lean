/-
Including a template and writing its text in the place of the tag. The tag renders the blocks of the template
in a scope without bindings of its own and without a selector, and where the text is written they are the
same blocks: what stands in the content looks at no selector, and texts that meet become one.
-/
import TemplateEngine.Proofs.Environment.Policy
import TemplateEngine.Proofs.Tag.IncludeText

namespace TemplateEngine.Environment

open Template IncludeTag

variable {env : Environment} {id : String}

/-! ## The included blocks -/

/-- The names of the templates that include another one do not matter. -/
def AnyNames (_ _ : String) : Prop :=
  True

/-- A row that is nothing but a tag that asks for an id, and a row of blocks in the content that are those of
a template. -/
structure Inlined (env : Environment) (id : String) (t : Template) (bs bs' : List Block) : Prop where
  tag : ∃ tag, bs = [.tag plugin tag []] ∧ tag.role = .opening ∧ ∀ s, Asks env s tag id
  rows : RowsAlike AnyNames (fun _ _ => False) t.blocks bs'
  stands : ∀ b ∈ bs', Stands env.registry b

/-- A tag that asks for an id gives the text of its template. -/
theorem resultAfter_include_eq_ok {s : Scope} {tag : Tag} (ha : Asks env s tag id) {depth : Nat} {name : String}
    {selector : Selector} {calls : List LoaderCall} {text : String} :
    (renderBlock (env.services depth) name (.tag plugin tag []) s selector).resultAfter calls = .ok text ↔
      ((env.services depth).renderInclude id s tag.template).resultAfter calls = .ok text := by
  have hrender (children : ChildrenRenderer) : plugin.render tag s (env.services depth) children =
      Outcome.text <$> (env.services depth).renderInclude id s tag.template := render_eq ha depth children
  rw [renderBlock, resultAfter_describeTag_eq_ok, hrender, bind_map_left]
  show (_ >>= fun text => pure text : Render String).resultAfter calls = _ ↔ _
  rw [bind_pure]

section

variable {t : Template} {bs bs' : List Block} (h : Inlined env id t bs bs') (hself : env.Extends AnyNames env)
  (hreg : env.registry.Reachable) (hb : env.registry.OnlyBuiltin)
  (hload : ∀ base, env.readLoaded id (env.loader.load id (some base)) = .ok t)

include h hself hreg hb hload

/-- What the tag renders, the row renders. -/
theorem Inlined.refine {depth depth' : Nat} (hd : depth ≤ depth') :
    RowsRefine (env.services depth) (env.services depth') bs bs' := by
  obtain ⟨tag, rfl, hrole, ha⟩ := h.tag
  intro name name' choice s s' selector hs
  cases choice with
  | insideTags =>
    -- before the first branch of a tag neither of them is rendered
    rw [renderBlocks_insideTags (by simp [Block.isInside, hrole]),
      renderBlocks_insideTags fun b hb => (h.stands b hb).isInside]
    exact refines_pure rfl
  | all =>
    rw [renderBlocks_singleton (.inl rfl)]
    intro calls text htext
    rw [resultAfter_include_eq_ok (ha s)] at htext
    cases depth with
    | zero => cases htext
    | succ depth =>
      obtain ⟨u, hu, hr⟩ := resultAfter_bind_eq_ok.1 htext
      have hu : env.readLoaded id (env.loader.load id (some tag.template)) = .ok u := hu
      cases (hload _).symm.trans hu
      -- the tag has a place of its own and no selector, where the row has neither
      have hagree : (s.child []).Agree s' := (Scope.Agree.child_nil s).symm.trans hs
      have hrows := h.rows.refine (hself.services hreg hb (Nat.le_of_succ_le hd)) (fun _ _ => False.elim)
      obtain ⟨_, rfl, h'⟩ := hrows t.name name' .all (s.child []) s' .absent hagree _ text hr
      rw [renderBlocks_selector hreg hb h.stands .absent selector] at h'
      exact ⟨text, rfl, h'⟩

/-- What the row renders, the tag renders where one more include may be open. -/
theorem Inlined.refine_symm (depth : Nat) : RowsRefine (env.services depth) (env.services (depth + 1)) bs' bs := by
  obtain ⟨tag, rfl, hrole, ha⟩ := h.tag
  intro name name' choice s s' selector hs
  cases choice with
  | insideTags =>
    rw [renderBlocks_insideTags fun b hb => (h.stands b hb).isInside,
      renderBlocks_insideTags (by simp [Block.isInside, hrole])]
    exact refines_pure rfl
  | all =>
    rw [renderBlocks_singleton (.inl rfl), renderBlocks_selector hreg hb h.stands selector .absent]
    intro calls text htext
    have hagree : s.Agree (s'.child []) := hs.trans (Scope.Agree.child_nil s')
    have hrows := h.rows.symm.refine (hself.services hreg hb (Nat.le_refl depth)) (fun _ _ => False.elim)
    obtain ⟨_, rfl, h'⟩ := hrows name t.name .all s (s'.child []) .absent hagree calls text htext
    refine ⟨text, rfl, fun calls' => ?_⟩
    rw [resultAfter_include_eq_ok (ha s')]
    exact resultAfter_bind_eq_ok.2 ⟨t, hload tag.template, h' _⟩

end

/-! ## The inlined text -/

/-- Two rows that are rendered to the same texts; the first one may need one more include. -/
structure SameTexts (env : Environment) (bs bs' : List Block) : Prop where
  refine : ∀ depth, RowsRefine (env.services depth) (env.services depth) bs bs'
  refine_symm : ∀ depth, RowsRefine (env.services depth) (env.services (depth + 1)) bs' bs

section

variable {included pre post name : String} {t u : Template} (hself : env.Extends AnyNames env)
  (hreg : env.registry.Reachable) (hb : env.registry.OnlyBuiltin)

include hself hreg hb

/-- The inlined text is read, and its blocks are rendered to the same texts. -/
theorem read_inlined (hroute : env.registry.route? "include" = some ⟨plugin, .opening⟩)
    (hid : ∀ c ∈ id.toList, Plain c) (hload : ∀ base, env.readLoaded id (env.loader.load id (some base)) = .ok u)
    (hincluded : env.parse included id = .ok u) (hpre : EndsInContent (pieces pre.toList))
    (hread : env.parse (pre ++ includeText id ++ post) name = .ok t)
    (hleft : Parted pre.toList (included ++ post).toList) (hright : Parted (pre ++ included).toList post.toList) :
    ∃ t', env.parse (pre ++ included ++ post) name = .ok t' ∧ SameTexts env t.blocks t'.blocks := by
  obtain ⟨-, hgives⟩ := parse_eq_ok_gives.1 hread
  have haround := pieces_around hid hpre hgives
  rw [haround] at hgives
  have hn : AnyNames id name := trivial
  -- the blocks of the template take the place of the tag
  have hcovers : (RowsAlike.congruence AnyNames (Inlined env id u)).Covers env.registry := RowsAlike.covers hreg hb
  have hplace : ∀ line, ∃ cs cs', Content env.registry name (number line (includePieces id)) cs ∧
      Content env.registry name (number line (pieces included.toList)) cs' ∧
      RowsAlike AnyNames (Inlined env id u) cs cs' := by
    intro line
    obtain ⟨tag, htag, hrole, hasks⟩ := content_include hid hroute name line
    have hincluded' : (RowsAlike.congruence AnyNames fun _ _ => False).Covers env.registry := RowsAlike.covers hreg hb
    obtain ⟨cs', hcs', hrows⟩ := content_of_read hincluded' hn (mapError_eq_ok.1 hincluded) line fun _ => trivial
    exact ⟨_, cs', htag, hcs', .base ⟨⟨tag, rfl, hrole, hasks env⟩, hrows, hcs'.stands⟩⟩
  obtain ⟨hends, bs₁, hgives₁, hrows₁⟩ :=
    Gives.replace hcovers (hself.names name) (fun _ => trivial) (fun _ _ => trivial) hpre hplace hgives
  -- then texts that meet become one, first behind the template and then before it
  obtain ⟨bs₂, hgives₂, hrows₂⟩ := Gives.glue hends hgives₁
  have hpre' : EndsInContent ([] ++ pieces pre.toList) := hpre
  obtain ⟨bs₃, hgives₃, hrows₃⟩ := Gives.glue hpre' hgives₂
  have hsame : RowsSame bs₁ bs₃ := fun _ _ _ _ _ => (hrows₂ _ _ _ _ _).trans (hrows₃ _ _ _ _ _)
  have hpieces : pieces (pre ++ included ++ post).toList =
      glue (pieces pre.toList) (glue (pieces included.toList) (pieces post.toList)) := by
    rw [String.toList_append] at hleft hright
    rw [String.toList_append, String.toList_append, List.append_assoc, pieces_parted hleft hright]
  refine ⟨⟨name, bs₃⟩, parse_eq_ok_gives.2 ⟨rfl, by rw [hpieces]; exact hgives₃⟩, fun depth => ?_, fun depth => ?_⟩
  · have h := hrows₁.refine (hself.services hreg hb (Nat.le_refl depth)) fun _ _ h =>
      h.refine hself hreg hb hload le_rfl
    exact h.congr (fun _ _ _ _ _ => rfl) hsame
  · have h := hrows₁.symm.refine (hself.services hreg hb (Nat.le_succ depth)) fun _ _ h =>
      h.refine_symm hself hreg hb hload depth
    exact h.congr hsame fun _ _ _ _ _ => rfl

end

/-! ## Renders of both texts -/

/-- A template text is rendered to a text for a context, where so many includes may be open at once. -/
def Renders (env : Environment) (depth : Nat) (source name : String) (context : Value) (text : String) : Prop :=
  ({ env with includeDepth := depth }.renderString source context name).run'.1 = .ok text

theorem services_includeDepth (env : Environment) (limit depth : Nat) :
    { env with includeDepth := limit }.services depth = env.services depth := by
  induction depth with
  | zero => rfl
  | succ depth ih =>
    rw [services, services, ih]
    rfl

/-- A text is rendered iff it can be parsed, the context is one, and the blocks are rendered in its scope. -/
theorem renders_iff {depth : Nat} {source name : String} {context : Value} {text : String} {t : Template}
    (h : env.parse source name = .ok t) : env.Renders depth source name context text ↔
      ∃ s, liftFault (env.makeScope context) = .ok s ∧
        (renderBlocks (env.services depth) t.name .all t.blocks s .absent).resultAfter [] = .ok text := by
  rw [← services_includeDepth env depth depth]
  unfold Renders
  show (Render.resultAfter _ []) = _ ↔ _
  unfold renderString
  constructor
  · intro hr
    obtain ⟨t', ht', hr⟩ := resultAfter_bind_eq_ok.1 hr
    cases h.symm.trans ht'
    obtain ⟨s, hs, hr⟩ := resultAfter_bind_eq_ok.1 hr
    exact ⟨s, hs, hr⟩
  · rintro ⟨s, hs, hr⟩
    exact resultAfter_bind_eq_ok.2 ⟨t, h, resultAfter_bind_eq_ok.2 ⟨s, hs, hr⟩⟩

theorem extends_self {texts : List (String × String)} (hl : env.loader = .ofTexts texts) : env.Extends AnyNames env where
  registry := rfl
  globalScope := rfl
  evaluate := Evaluator.eval_extends (.refl _)
  load := by
    rw [hl]
    intros
    rfl
  names _ := trivial

/-- A tag that includes a template is the same as the text of the template in its place. If the text can be parsed
on its own, if the tag stands in the content of a text that can be parsed, and if no delimiter lies across the ends
of the inlined text, then the inlined text can be parsed, and for each context the one is rendered iff the other is,
to the same text, under either policy. The tag is itself one of the includes that are open at once. -/
theorem include_inlined {texts : List (String × String)} {included pre post name : String}
    (hreg : env.registry = builtinRegistry) (hl : env.loader = .ofTexts texts)
    (htexts : texts.find? (·.1 == id) = some (id, included)) (hid : ∀ c ∈ id.toList, Plain c)
    (hincluded : ∃ u, env.parse included id = .ok u) (hpre : EndsInContent (pieces pre.toList))
    (hread : ∃ t, env.parse (pre ++ includeText id ++ post) name = .ok t)
    (hleft : Parted pre.toList (included ++ post).toList) (hright : Parted (pre ++ included).toList post.toList) :
    (∃ t, env.parse (pre ++ included ++ post) name = .ok t) ∧ ∀ context text,
      ((∃ depth, env.Renders depth (pre ++ includeText id ++ post) name context text) ↔
        ∃ depth, env.Renders depth (pre ++ included ++ post) name context text) ∧
      ∀ depth, (env.Renders depth (pre ++ includeText id ++ post) name context text →
          env.Renders depth (pre ++ included ++ post) name context text) ∧
        (env.Renders depth (pre ++ included ++ post) name context text →
          env.Renders (depth + 1) (pre ++ includeText id ++ post) name context text) := by
  obtain ⟨u, hu⟩ := hincluded
  obtain ⟨t, ht⟩ := hread
  have hreach : env.registry.Reachable := by
    rw [hreg]
    exact reachable_builtinRegistry
  have hbuiltin : env.registry.OnlyBuiltin := by
    rw [hreg]
    exact onlyBuiltin_builtinRegistry
  have hroute : env.registry.route? "include" = some ⟨plugin, .opening⟩ := by
    rw [hreg]
    with_unfolding_all rfl
  have hload (base : String) : env.readLoaded id (env.loader.load id (some base)) = .ok u := by
    have hfound : env.loader.load id (some base) = .ok (.str included) := by
      simp only [hl, Loader.ofTexts, htexts]
    rw [hfound]
    exact hu
  obtain ⟨t', ht', hsame⟩ :=
    read_inlined (extends_self hl) hreach hbuiltin hroute hid hload hu hpre ht hleft hright
  refine ⟨⟨t', ht'⟩, fun context text => ?_⟩
  have hdepth : ∀ depth, (env.Renders depth (pre ++ includeText id ++ post) name context text →
        env.Renders depth (pre ++ included ++ post) name context text) ∧
      (env.Renders depth (pre ++ included ++ post) name context text →
        env.Renders (depth + 1) (pre ++ includeText id ++ post) name context text) := by
    intro depth
    rw [renders_iff ht, renders_iff ht', renders_iff ht]
    constructor
    · rintro ⟨s, hs, hr⟩
      obtain ⟨_, rfl, h⟩ := hsame.refine depth t.name t'.name .all s s .absent (.refl s) [] text hr
      exact ⟨s, hs, h []⟩
    · rintro ⟨s, hs, hr⟩
      obtain ⟨_, rfl, h⟩ := hsame.refine_symm depth t'.name t.name .all s s .absent (.refl s) [] text hr
      exact ⟨s, hs, h []⟩
  exact ⟨⟨fun ⟨depth, h⟩ => ⟨depth, (hdepth depth).1 h⟩, fun ⟨depth, h⟩ => ⟨depth + 1, (hdepth depth).2 h⟩⟩, hdepth⟩

/-- The text `b{% for i in xs %}{{ i }}{% endfor %}c`. -/
def rowText : String :=
  "b\x7b% for i in xs %\x7d\x7b\x7b i \x7d\x7d\x7b% endfor %\x7dc"

/-- An environment whose loader knows this text as `row`. -/
def rowEnvironment : Environment where
  loader := .ofTexts [("row", rowText)]

/-- What stands around the row: it lies inside of a tag and meets other texts at both ends. -/
def beforeRow : String :=
  "\x7b% if xs %\x7da"

def afterRow : String :=
  "d\x7b% endif %\x7d"

def rowContext : Value :=
  .dict [(.str "xs", .list [.int 1, .int 2])]

theorem include_inlined_row :
    (∃ u, rowEnvironment.parse rowText "row" = .ok u) ∧ (∀ c ∈ "row".toList, Plain c) ∧
    EndsInContent (pieces beforeRow.toList) ∧ Parted beforeRow.toList (rowText ++ afterRow).toList ∧
    Parted (beforeRow ++ rowText).toList afterRow.toList ∧
    (∃ t, rowEnvironment.parse (beforeRow ++ includeText "row" ++ afterRow) "t" = .ok t) ∧
    (∃ t, rowEnvironment.parse (beforeRow ++ rowText ++ afterRow) "t" = .ok t) ∧
    rowEnvironment.Renders 1 (beforeRow ++ includeText "row" ++ afterRow) "t" rowContext "ab12cd" ∧
    rowEnvironment.Renders 1 (beforeRow ++ rowText ++ afterRow) "t" rowContext "ab12cd" := by
  have hid : ∀ c ∈ "row".toList, Plain c := by simp [Plain]
  have hrow : ∃ u, rowEnvironment.parse rowText "row" = .ok u := exists_ok_of_isSome (by decide +kernel)
  have hpre : EndsInContent (pieces beforeRow.toList) := by
    unfold EndsInContent
    decide +kernel
  have hread : ∃ t, rowEnvironment.parse (beforeRow ++ includeText "row" ++ afterRow) "t" = .ok t :=
    exists_ok_of_isSome (by decide +kernel)
  have hleft : Parted beforeRow.toList (rowText ++ afterRow).toList := by decide +kernel
  have hright : Parted (beforeRow ++ rowText).toList afterRow.toList := by decide +kernel
  have hrender : rowEnvironment.Renders 1 (beforeRow ++ includeText "row" ++ afterRow) "t" rowContext "ab12cd" :=
    eq_ok_of_toOption (by decide +kernel)
  obtain ⟨hinlined, hsame⟩ :=
    @include_inlined rowEnvironment "row" _ rowText _ _ "t" rfl rfl rfl hid hrow hpre hread hleft hright
  exact ⟨hrow, hid, hpre, hleft, hright, hread, hinlined, hrender, ((hsame rowContext "ab12cd").2 1).1 hrender⟩

end TemplateEngine.Environment

/-
What an error says of the registry. Where a tag follows a final one, the reader names a closing tag of the open block;
there is always one, since a tag of a singular family is never open. Where arguments are refused, a registered family has
refused them.
-/
import TemplateEngine.Proofs.Tag.Registry
import TemplateEngine.Proofs.Template.Step

namespace TemplateEngine

/-- What is raised for a text that is no template is an error of the template, or the fault of asking an argument problem
for its text. -/
theorem Failure.ofTemplate_cases (e : TemplateError) : ofTemplate e = .template e ∨
    ∃ tag f, e.problem = .arguments tag (.unwritten f) ∧ ofTemplate e = .fault f := by
  unfold ofTemplate
  split
  · rename_i tag f he
    exact .inr ⟨tag, f, he, rfl⟩
  · exact .inl rfl

namespace Template

/-! ## The expected tag -/

/-- A family that is not singular has a closing tag. -/
theorem headD_mem_closingNames {registry : TagRegistry} (hreg : registry.Reachable) {p : TagPlugin}
    (hp : p ∈ registry.plugins) (hs : p.singular = false) : p.closingNames.headD "" ∈ p.closingNames := by
  have hnames := hreg.names_ne_nil p hp
  unfold TagPlugin.closingNames
  rw [hs, if_neg Bool.false_ne_true]
  cases hn : p.names with
  | nil => exact absurd hn hnames
  | cons n ns => exact List.mem_cons_self ..

/-- What an error expects in the place of a tag is a closing tag. -/
def Expects (registry : TagRegistry) (problem : TemplateProblem) : Prop :=
  ∀ inside current expected, problem = .afterFinal inside current expected →
    ∃ p ∈ registry.plugins, expected ∈ p.closingNames

/-- The arguments that an error refuses are refused by a registered family. -/
def Refuses (registry : TagRegistry) (problem : TemplateProblem) : Prop :=
  ∀ tag why, problem = .arguments tag why →
    ∃ p ∈ registry.plugins, ∃ role signature, p.readArgs tag role signature = .error why

/-- A problem says of the registry what holds of it. -/
structure Founded (registry : TagRegistry) (problem : TemplateProblem) : Prop where
  expected : Expects registry problem
  refused : Refuses registry problem

/-- A problem that names a closing tag or a reason to refuse arguments. -/
def citesRegistry : TemplateProblem → Bool
  | .afterFinal _ _ _ | .arguments _ _ => true
  | _ => false

/-- Other problems say nothing of the registry. -/
theorem Founded.of_plain {registry : TagRegistry} {problem : TemplateProblem} (h : citesRegistry problem = false) :
    Founded registry problem where
  expected inside current expected he := by
    rw [he] at h
    cases h
  refused tag why he := by
    rw [he] at h
    cases h

namespace Reader

/-! ## Open tags -/

variable {registry : TagRegistry} {name : String} {r r' : Reader} {t : Token}

/-- The families of the open tags are registered, and their tags are closed by other ones. -/
def Closable (registry : TagRegistry) (r : Reader) : Prop :=
  ∀ o ∈ r.openTags, o.plugin ∈ registry.plugins ∧ o.plugin.singular = false

/-- The tags below those that are closed stay open. -/
theorem suffix_of_closeFamily? {family : String} {os rest : List OpenTag} {bs closed : List Block}
    (h : closeFamily? family os bs = some (rest, closed)) : rest <:+ os := by
  induction os generalizing bs with
  | nil => cases h
  | cons o os ih =>
    rw [closeFamily?] at h
    split at h
    · split at h
      · cases h
        exact List.suffix_cons o _
      · exact (ih h).trans (List.suffix_cons o os)
    · cases h

theorem Closable.of_placeTag (hreg : registry.Reachable) (h : r.Closable registry) {route : TagRoute} {tag : Tag}
    (hr : registry.route? tag.name = some route) (hp : placeTag name route tag r = .ok r') : r'.Closable registry := by
  obtain ⟨p, role⟩ := route
  have hmem : p ∈ registry.plugins := (hreg.route hr).1
  cases role with
  | opening =>
    rw [placeTag_opening] at hp
    cases hs : p.singular with
    | true =>
      rw [hs] at hp
      cases hp
      exact h
    | false =>
      rw [hs] at hp
      cases hp
      rintro o (_ | ⟨_, ho⟩)
      · exact ⟨hmem, hs⟩
      · exact h o ho
  | inside =>
    obtain ⟨⟨o, rest, hopen, hfamily, -⟩, rfl⟩ := placeTag_inside.1 hp
    obtain ⟨ho, hs⟩ := h o (by rw [hopen]; exact List.mem_cons_self ..)
    -- the innermost open tag is of the same family, so that it has the same plugin
    rintro o' (_ | ⟨_, ho'⟩)
    · exact ⟨hmem, hreg.eq_of_family ho hmem hfamily ▸ hs⟩
    · exact h o' ho'
  | closing =>
    obtain ⟨stack, blocks, hclose, rfl⟩ := placeTag_closing.1 hp
    exact fun o ho => h o ((suffix_of_closeFamily? hclose).subset ho)

theorem Closable.of_step (hreg : registry.Reachable) (h : r.Closable registry) (hs : step registry name r t = .ok r') :
    r'.Closable registry := by
  unfold Reader.step at hs
  rcases hf : r.contexts.feed t with ⟨result, c⟩
  rw [hf] at hs
  cases result with
  | error problem => cases hs
  | ok owner =>
    dsimp only at hs
    split at hs
    · cases hs; exact h
    · cases hs; exact h
    · cases hs; exact h
    · obtain ⟨p, -, -, rfl⟩ := addOutput_eq_ok.1 hs
      exact h
    · obtain ⟨p, route, tag, -, -, hroute, -, -, -, -, hplace⟩ := addTag_eq_ok.1 hs
      exact Closable.of_placeTag hreg (r := { r with contexts := c, payload := none }) h hroute hplace
    · cases hs; exact h

/-! ## Errors -/

theorem Closable.founded_of_placeTag (hreg : registry.Reachable) (h : r.Closable registry) {route : TagRoute}
    {tag : Tag} {e : TemplateError} (hp : placeTag name route tag r = .error e) : Founded registry e.problem := by
  unfold placeTag at hp
  dsimp only at hp
  split at hp
  · split at hp <;> cases hp
  · split at hp
    · cases hp
    · cases hp
      exact .of_plain rfl
  · split at hp
    · cases hp
      exact .of_plain rfl
    · rename_i o rest hopen
      split at hp
      · cases hp
        exact .of_plain rfl
      · split at hp
        · cases hp
          refine ⟨fun inside current expected he => ?_, fun tag why he => nomatch he⟩
          cases he
          obtain ⟨ho, hs⟩ := h o (by rw [hopen]; exact List.mem_cons_self ..)
          exact ⟨o.plugin, ho, headD_mem_closingNames hreg ho hs⟩
        · cases hp

/-- A tag is not made where its family refuses the arguments. -/
theorem founded_of_makeTag {line : Nat} {route : TagRoute} {m : TagMarkup} {e : TemplateError}
    (hp : route.plugin ∈ registry.plugins) (h : makeTag name line route m = .error e) : Founded registry e.problem := by
  unfold makeTag at h
  dsimp only at h
  split at h
  · cases h
  · split at h
    · cases h
    · rename_i why hread
      cases h
      refine ⟨fun inside current expected he => (nomatch he), fun tag why he => ?_⟩
      cases he
      exact ⟨route.plugin, hp, _, _, hread⟩

theorem Closable.founded_of_addTag (hreg : registry.Reachable) (h : r.Closable registry) {e : TemplateError}
    (ha : r.addTag registry name t = .error e) : Founded registry e.problem := by
  unfold addTag at ha
  dsimp only at ha
  split at ha
  · cases ha
    exact .of_plain rfl
  · unfold TagRegistry.route at ha
    split at ha
    · rw [ok_bind] at ha
      rename_i m _ _ route hroute
      cases htag : makeTag name ((r.payload.map (·.line)).getD t.line) route m with
      | ok tag =>
        rw [htag, ok_bind] at ha
        exact Closable.founded_of_placeTag hreg (r := { r with payload := none }) h ha
      | error e' =>
        rw [htag] at ha
        cases ha
        exact founded_of_makeTag (hreg.route hroute).1 htag
    · cases ha
      exact .of_plain rfl

theorem Closable.founded (hreg : registry.Reachable) (h : r.Closable registry) {e : TemplateError}
    (hs : step registry name r t = .error e) : Founded registry e.problem := by
  unfold step at hs
  rcases hf : r.contexts.feed t with ⟨result, c⟩
  rw [hf] at hs
  cases result with
  | error problem =>
    cases hs
    exact .of_plain rfl
  | ok owner =>
    dsimp only at hs
    split at hs
    · cases hs
    · cases hs
    · cases hs
    · unfold addOutput at hs
      split at hs
      · split at hs
        · cases hs
          exact .of_plain rfl
        · cases hs
      · cases hs
        exact .of_plain rfl
    · exact Closable.founded_of_addTag hreg (r := { r with contexts := c }) h hs
    · cases hs

end Reader

/-- What an error of reading says of the registry holds of it. -/
theorem founded_of_read {registry : TagRegistry} (hreg : registry.Reachable) {text name : String} {e : TemplateError}
    (h : Template.read registry text name = .error e) : Founded registry e.problem := by
  cases hr : (tokens text).foldlM (Reader.step registry name) {} with
  | error e' =>
    unfold Template.read at h
    rw [hr] at h
    cases h
    have hstart : Reader.Closable registry {} := nofun
    obtain ⟨r, t, hclosable, hstep⟩ :=
      exists_of_foldlM_error (fun _ _ _ hr hs => Reader.Closable.of_step hreg hr hs) hstart hr
    exact hclosable.founded hreg hstep
  | ok r =>
    unfold Template.read at h
    rw [hr, ok_bind] at h
    cases hf : r.finish name with
    | ok bs =>
      rw [hf] at h
      cases h
    | error e' =>
      rw [hf] at h
      cases h
      -- what is left open at the end follows no final tag and has its arguments
      unfold Reader.finish at hf
      split at hf
      · cases hf
        exact .of_plain rfl
      · split at hf
        · cases hf
          exact .of_plain rfl
        · cases hf

/-- What is raised for a text is the error of the template, or the fault of a registered family that has no text for what
it refuses. -/
theorem raised_of_read {registry : TagRegistry} (hreg : registry.Reachable) {text name : String} {e : TemplateError}
    (h : Template.read registry text name = .error e) : Failure.ofTemplate e = .template e ∨
      ∃ p ∈ registry.plugins, ∃ tag role signature f, p.readArgs tag role signature = .error (.unwritten f) ∧
        Failure.ofTemplate e = .fault f := by
  rcases Failure.ofTemplate_cases e with hraised | ⟨tag, f, he, hraised⟩
  · exact .inl hraised
  · obtain ⟨p, hp, role, signature, hread⟩ := (founded_of_read hreg h).refused tag _ he
    exact .inr ⟨p, hp, tag, role, signature, f, hread, hraised⟩

end Template

end TemplateEngine

/-
Failures that leave a render. Operations on values and code of the embedding program fail with faults; outputs, tags and
the loader each describe those that reach them, so that whoever renders gets a text, or an error that is meant for a
reader.
-/
import TemplateEngine.Proofs.Environment.Matching
import TemplateEngine.Proofs.Template.Builder
import TemplateEngine.Proofs.Template.Reading
import TemplateEngine.Proofs.Template.Shape
import TemplateEngine.Template.Tree

namespace TemplateEngine

/-- A render gives a text or an error that is meant for a reader, whatever was asked of the loader before. -/
def Reported (r : Render String) : Prop :=
  ∀ calls, (∃ text, r.resultAfter calls = .ok text) ∨
    ∃ failure, r.resultAfter calls = .error failure ∧ failure.forReader = true

theorem reported_of_noFault {r : Render String} (h : NoFault r) : Reported r := by
  intro calls
  cases hr : r.resultAfter calls with
  | ok text => exact .inl ⟨text, rfl⟩
  | error failure =>
    refine .inr ⟨failure, rfl, ?_⟩
    cases failure with
    | fault f => exact absurd hr (h calls f)
    | template e => rfl
    | expression e => rfl
    | evaluation e => rfl
    | load e => rfl

/-- A node that is an output or a tag. -/
def NodeContent.IsRendered : NodeContent → Prop
  | .output _ _ => True
  | .tag _ _ => True
  | _ => False

/-- Such a node is rendered as a block of its kind. -/
theorem Tree.block_ne_bare {t : Tree} {h : Nat} {c : NodeContent} (hc : t.content? h = some c) (hr : c.IsRendered) :
    t.block h ≠ .bare := by
  rw [Tree.block]
  cases c with
  | output source line => simp [hc]
  | tag p tag => simp [hc]
  | root => cases hr
  | text s => cases hr
  | bare => cases hr

namespace Environment

open Template

variable {env : Environment}

/-- A text that is refused raises an error of the template, or a fault. -/
theorem parse_eq_error {source name : String} {failure : Failure} (h : env.parse source name = .error failure) :
    (∃ e, Template.read env.registry source name = .error e ∧ failure = .template e) ∨ ∃ f, failure = .fault f := by
  unfold parse at h
  cases hread : Template.read env.registry source name with
  | ok t =>
    rw [hread] at h
    cases h
  | error e =>
    rw [hread] at h
    cases h
    rcases Failure.ofTemplate_cases e with he | ⟨tag, f, -, he⟩
    · exact .inl ⟨e, rfl, he⟩
    · exact .inr ⟨f, he⟩

/-- No text makes a family raise what has no text. -/
def Explains (env : Environment) : Prop :=
  ∀ source name f, env.parse source name ≠ .error (.fault f)

/-- The fault that a text raises is that of a registered family that has no text for the arguments that it refuses. -/
theorem exists_of_parse_fault (hreg : env.registry.Reachable) {source name : String} {f : Fault}
    (h : env.parse source name = .error (.fault f)) :
    ∃ p ∈ env.registry.plugins, ∃ tag role signature, p.readArgs tag role signature = .error (.unwritten f) := by
  unfold parse at h
  cases hread : Template.read env.registry source name with
  | ok t =>
    rw [hread] at h
    cases h
  | error e =>
    rw [hread] at h
    have h : Failure.ofTemplate e = .fault f := Except.error.inj h
    rcases raised_of_read hreg hread with he | ⟨p, hp, tag, role, signature, f', hargs, he⟩
    · cases he.symm.trans h
    · cases he.symm.trans h
      exact ⟨p, hp, tag, role, signature, hargs⟩

theorem explains_of_onlyBuiltin (hreg : env.registry.Reachable) (hb : env.registry.OnlyBuiltin) : env.Explains := by
  intro source name f h
  obtain ⟨p, hp, tag, role, signature, hargs⟩ := exists_of_parse_fault hreg h
  exact explains_of_builtin (hb p hp) tag role signature f hargs

/-- What the loader raises or gives wrongly becomes an error of loading, so that a fault comes from the text that it gave. -/
theorem readLoaded_eq_fault {id : String} {r : Except Failure Value} {f : Fault}
    (h : env.readLoaded id r = .error (.fault f)) : ∃ text, r = .ok (.str text) ∧ env.parse text id = .error (.fault f) := by
  unfold readLoaded at h
  split at h
  · exact ⟨_, rfl, h⟩
  · cases h
  · cases h
  · rename_i failure hno
    exact absurd (Except.error.inj h) (hno f)

theorem noFault_load {id : String} {base : Option String}
    (h : ∀ text f, env.loader.load id base = .ok (.str text) → env.parse text id ≠ .error (.fault f)) :
    NoFault (env.load id base) := by
  intro _ f hfault
  obtain ⟨text, hload, hparse⟩ := readLoaded_eq_fault hfault
  exact h text f hload hparse

theorem reads_of_load {id : String} {base : Option String} {calls : List LoaderCall} {t : Template}
    (h : ((ExceptT.run (env.load id base)).run calls).1 = .ok t) : env.Reads t := by
  obtain ⟨text, -, hparse⟩ := readLoaded_eq_ok.1 h
  exact reads_of_parse hparse

/-- The blocks of a template that was read can all be rendered. -/
theorem noFault_renderTemplate {t : Template} (ht : env.Reads t) (s : Scope) : NoFault (env.renderTemplate t s) := by
  obtain ⟨text, name, ht⟩ := ht
  refine noFault_renderBlocks fun b hb => ?_
  have hstands := (read_eq_ok.1 ht).2.stands b hb
  rintro rfl
  exact hstands

/-- A mapping, or no context at all. -/
def IsContext (context : Value) : Prop :=
  context = .none ∨ ∃ entries, context = .dict entries

theorem noFault_makeScope {context : Value} (h : IsContext context) :
    NoFault (Render.ofResult (liftFault (env.makeScope context))) := by
  refine noFault_ofResult fun f => ?_
  rcases h with rfl | ⟨entries, rfl⟩ <;> exact nofun

section

variable {context : Value} (hcontext : IsContext context)

include hcontext

theorem noFault_renderString {source name : String} (hparse : ∀ f, env.parse source name ≠ .error (.fault f)) :
    NoFault (env.renderString source context name) := by
  refine noFault_bind_of_ok (noFault_ofResult hparse) fun t _ ht => ?_
  refine noFault_bind (noFault_makeScope hcontext) fun s => ?_
  exact noFault_renderTemplate (reads_of_parse ht) s

theorem noFault_render {id : String} (hload : NoFault (env.load id none)) : NoFault (env.render id context) := by
  refine noFault_bind_of_ok hload fun t _ ht => ?_
  refine noFault_bind (noFault_makeScope hcontext) fun s => ?_
  exact noFault_renderTemplate (reads_of_load ht) s

end

/-- A family whose only tag fails. -/
def failingTag : TagPlugin where
  label := "FailingTag"
  family := "broken"
  names := ["broken"]
  singular := true
  readArgs _ _ _ := .ok .none
  render _ _ _ _ := throw (.fault (.foreign .runtime "boom"))

/-- An environment with these families and a loader that fails. -/
def failingEnvironment : Environment where
  loader := ⟨fun _ _ => .error (.fault (.foreign .system "disk on fire"))⟩
  registry := builtinRegistry.addAll [failingTag, silentTag]

/-- The text `{% if x %}{% else %}{% else %}{% endif %}`. -/
def misplacedElse : String :=
  "\x7b% if x %\x7d\x7b% else %\x7d\x7b% else %\x7d\x7b% endif %\x7d"

end Environment

end TemplateEngine

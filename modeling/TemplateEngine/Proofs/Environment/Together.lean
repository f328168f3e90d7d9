/-
Blocks that are rendered together. A scheduler that fails only where one of its renders fails lets no fault through, as
little as the blocks rendered in order do; and the scheduler that takes one render after the other is that order.
-/
import TemplateEngine.Proofs.Environment.Reported

namespace TemplateEngine

/-- What is put together fails only as one of the renders does, at some point of it. -/
def Gather.Propagates (gather : Gather) : Prop :=
  ∀ rs calls failure, (gather rs).resultAfter calls = .error failure →
    ∃ r ∈ rs, ∃ calls', r.resultAfter calls' = .error failure

theorem Gather.propagates_inOrder : Gather.Propagates .inOrder := by
  intro rs
  induction rs with
  | nil =>
    intro calls failure h
    cases h
  | cons r rs ih =>
    intro calls failure h
    rcases resultAfter_bind_eq_error.1 h with hr | ⟨text, calls', hrest⟩
    · exact ⟨r, List.mem_cons_self .., calls, hr⟩
    · rcases resultAfter_bind_eq_error.1 hrest with hrest | ⟨rest, calls', hpure⟩
      · obtain ⟨r', hr', calls'', h'⟩ := ih _ _ hrest
        exact ⟨r', List.mem_cons_of_mem _ hr', calls'', h'⟩
      · cases hpure

/-! ## Faults -/

section

variable {gather : Gather} {services : Services} {name : String} {choice : ChildChoice} {s : Scope} {selector : Selector}

theorem noFault_gather (hg : gather.Propagates) {rs : List (Render String)} (h : ∀ r ∈ rs, NoFault r) :
    NoFault (gather rs) := by
  intro calls f hf
  obtain ⟨r, hr, calls', hf'⟩ := hg rs calls _ hf
  exact h r hr calls' f hf'

theorem noFault_renderBlockTogether {b : Block} (hb : b ≠ .bare) :
    NoFault (renderBlockTogether gather services name b s selector) := by
  cases b with
  | text s => exact noFault_pure s
  | output source line => exact noFault_outputText services source line s
  | tag p t cs =>
    rw [renderBlockTogether]
    exact noFault_describeTag _
  | bare => exact absurd rfl hb

theorem noFault_rendersOf {bs : List Block} (hb : ∀ b ∈ bs, b ≠ .bare) :
    ∀ r ∈ rendersOf gather services name choice bs s selector, NoFault r := by
  induction bs with
  | nil => exact nofun
  | cons b bs ih =>
    have hrest := ih fun c hc => hb c (List.mem_cons_of_mem _ hc)
    rw [rendersOf]
    split
    · exact hrest
    · intro r hr
      rcases List.mem_cons.1 hr with rfl | hr
      · exact noFault_renderBlockTogether (hb b (List.mem_cons_self ..))
      · exact hrest r hr

end

/-! ## One after the other -/

mutual

theorem renderBlockTogether_inOrder (services : Services) (name : String) :
    ∀ b s selector, renderBlockTogether .inOrder services name b s selector = renderBlock services name b s selector
  | .text s, _, _ => by rw [renderBlockTogether, renderBlock]
  | .output source line, s, _ => by rw [renderBlockTogether, renderBlock]
  | .tag p t cs, s, selector => by
    rw [renderBlockTogether, renderBlock]
    simp only [inOrder_rendersOf services name _ cs]
  | .bare, _, _ => by rw [renderBlockTogether, renderBlock]

theorem inOrder_rendersOf (services : Services) (name : String) (choice : ChildChoice) :
    ∀ bs s selector, Gather.inOrder (rendersOf .inOrder services name choice bs s selector) =
      renderBlocks services name choice bs s selector
  | [], _, _ => by
    rw [rendersOf, renderBlocks, Gather.inOrder]
  | b :: bs, s, selector => by
    have hrest := inOrder_rendersOf services name choice bs s selector
    rw [rendersOf, renderBlocks]
    split
    · exact hrest
    · rw [Gather.inOrder, renderBlockTogether_inOrder services name b, hrest]

end

namespace Environment

variable {env : Environment}

theorem servicesTogether_inOrder (depth : Nat) : env.servicesTogether .inOrder depth = env.services depth := by
  induction depth with
  | zero => rfl
  | succ depth ih =>
    rw [servicesTogether, services, ih]
    simp only [inOrder_rendersOf]

theorem renderTemplateTogether_inOrder (t : Template) (s : Scope) :
    env.renderTemplateTogether .inOrder t s = env.renderTemplate t s := by
  rw [renderTemplateTogether, servicesTogether_inOrder, inOrder_rendersOf]
  rfl

/-- The scheduler that takes one render after the other renders in order. -/
theorem together_inOrder (env : Environment) :
    (∀ source context name, env.renderStringTogether .inOrder source context name = env.renderString source context name) ∧
      ∀ id context, env.renderTogether .inOrder id context = env.render id context := by
  refine ⟨fun source context name => ?_, fun id context => ?_⟩
  · simp only [renderStringTogether, renderString, renderTemplateTogether_inOrder]
  · simp only [renderTogether, render, renderTemplateTogether_inOrder]

/-! ## Renders -/

section

variable {gather : Gather} (hg : gather.Propagates) {context : Value} (hcontext : IsContext context)

include hg

theorem noFault_renderTemplateTogether {t : Template} (ht : env.Reads t) (s : Scope) :
    NoFault (env.renderTemplateTogether gather t s) := by
  obtain ⟨text, name, ht⟩ := ht
  refine noFault_gather hg (noFault_rendersOf fun b hb => ?_)
  have hstands := (Template.read_eq_ok.1 ht).2.stands b hb
  rintro rfl
  exact hstands

include hcontext

theorem noFault_renderStringTogether {source name : String} (hparse : ∀ f, env.parse source name ≠ .error (.fault f)) :
    NoFault (env.renderStringTogether gather source context name) := by
  refine noFault_bind_of_ok (noFault_ofResult hparse) fun t _ ht => ?_
  refine noFault_bind (noFault_makeScope hcontext) fun s => ?_
  exact noFault_renderTemplateTogether hg (reads_of_parse ht) s

theorem noFault_renderTogether {id : String} (hload : NoFault (env.load id none)) :
    NoFault (env.renderTogether gather id context) := by
  refine noFault_bind_of_ok hload fun t _ ht => ?_
  refine noFault_bind (noFault_makeScope hcontext) fun s => ?_
  exact noFault_renderTemplateTogether hg (reads_of_load ht) s

end

end Environment

end TemplateEngine

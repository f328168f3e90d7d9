/-
Where constructs stand. The line of an output or a tag is the one on which it starts, as the line ends in front of it
give it.
-/
import TemplateEngine.Proofs.Template.Listing
import TemplateEngine.Proofs.Template.Shape

namespace TemplateEngine

open Template

namespace Template

/-- A payload between two delimiters stands in a text, and starts on a line. -/
def MarkupAt (text : String) (left right : Delimiter) (payload : String) (line : Nat) : Prop :=
  ∃ front rest, text.toList = front ++ (left.chars ++ payload.toList ++ right.chars) ++ rest ∧
    line = 1 + lineEnds front

variable {registry : TagRegistry} {name : String} {b : Block} {ts : List Token}

theorem Enclosed.markupAt {left right : Delimiter} {p : Token} {text : String} (h : Enclosed left right p ts)
    (hts : ts <:+: tokens text) : MarkupAt text left right p.value p.line := by
  obtain ⟨front, rest, hsplit⟩ := hts
  have hlexed := lexed_tokens text
  rw [← hsplit, lexed_append, lexed_append] at hlexed
  obtain ⟨⟨-, hlexed⟩, -⟩ := hlexed
  refine ⟨spelling front, spelling rest, ?_, h.line_eq hlexed⟩
  cases h with
  | mk ho hp hc =>
    rename_i o c
    have hleft := hlexed.delimiters o (by simp) _ ho
    have hright := hlexed.delimiters c (by simp) _ hc
    rw [← spelling_tokens, ← hsplit]
    simp [hleft, hright]

/-- An output stands among the tokens from which it is derived. -/
theorem Derived.enclosed {source : String} {line : Nat} (h : Derived registry name ts (.output source line)) :
    ∃ us p, us <:+: ts ∧ Enclosed .outputOpen .outputClose p us ∧ source = Text.trim p.value ∧ line = p.line := by
  obtain ⟨us, hus, hc⟩ := h.of_not_inside rfl
  generalize hbs : [Block.output source line] = bs at hc
  cases hc with
  | text h => cases hbs
  | comment h => cases hbs
  | output hp hblank =>
    cases hbs
    exact ⟨_, _, hus, hp, rfl, rfl⟩
  | singular h hp => cases hbs
  | block h hp hb hi hc hq => cases hbs

end Template

/-- An output or a tag stands in a text, and starts on a line. -/
def Block.StandsAt (text : String) (line : Nat) : Block → Prop
  | output source n => n = line ∧ ∃ payload, MarkupAt text .outputOpen .outputClose payload line ∧ source = Text.trim payload
  | tag _ t _ => t.line = line ∧ ∃ payload, MarkupAt text .tagOpen .tagClose payload line ∧
      TagMarkup.ofPayload? payload = some t.markup
  | _ => False

/-- The line of an output or a tag. -/
def Block.line? : Block → Option Nat
  | output _ line => some line
  | tag _ t _ => some t.line
  | _ => none

/-- The outputs and the tags of a template that was read stand in its text, on the lines that they know. -/
theorem Block.Occurs.standsAt {registry : TagRegistry} {text name : String} {t : Template} {b : Block} {line : Nat}
    (h : b.Occurs t.blocks) (hline : b.line? = some line) (hread : Template.read registry text name = .ok t) :
    b.StandsAt text line := by
  have hd := (read_eq_ok.1 hread).2.derived h
  cases b with
  | output source n =>
    cases hline
    obtain ⟨us, p, hus, hp, hsource, rfl⟩ := hd.enclosed
    exact ⟨rfl, p.value, hp.markupAt hus, hsource⟩
  | tag p tag cs =>
    cases hline
    obtain ⟨us, role, hus, htag⟩ := hd.tagTokens_infix
    obtain ⟨payload, hp, hmarkup, hn⟩ := htag.tokens
    exact ⟨rfl, payload.value, hn ▸ hp.markupAt hus, hmarkup⟩
  | text s => cases hline
  | bare => cases hline

end TemplateEngine

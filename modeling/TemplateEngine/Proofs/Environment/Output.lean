/-
Templates that are one output. An expression can be printed unless two of its neighbours make a delimiter, since a
template is cut at its delimiters before anything in it is read as an expression.
-/
import TemplateEngine.Proofs.Environment.Matching
import TemplateEngine.Proofs.Expr.Trim
import TemplateEngine.Proofs.Tag.Include
import TemplateEngine.Proofs.Template.Output

namespace TemplateEngine.Environment

open Template

/-- What an expression prints: the text of its value. -/
def printed (env : Environment) (e : Expr) (s : Scope) : Except Failure String := do
  let v ← env.evaluate e s
  liftFault v.outputText

theorem printed_eq_ok {env : Environment} {e : Expr} {s : Scope} {text : String} :
    env.printed e s = .ok text ↔ ∃ v, env.evaluate e s = .ok v ∧ v.outputText = .ok text := by
  unfold printed
  rw [bind_eq_ok]
  exact exists_congr fun v => and_congr_right fun _ => mapError_eq_ok

/-- A template of one output gives what its expression prints. -/
theorem renderTemplate_output_eq_ok {env : Environment} {t : Template} {source : String} {line : Nat} {e : Expr}
    {s : Scope} {text : String} (ht : t.blocks = [.output source line]) (he : Expr.read source = .ok e) :
    (env.renderTemplate t s).run'.1 = .ok text ↔ env.printed e s = .ok text := by
  show (env.renderTemplate t s).resultAfter [] = _ ↔ _
  rw [renderTemplate, ht, renderBlocks_singleton (.inl rfl), renderBlock, resultAfter_outputText_eq_ok, printed_eq_ok,
    evaluate_services]
  constructor
  · rintro ⟨e', v, he', hv, htext⟩
    cases he.symm.trans he'
    exact ⟨v, hv, htext⟩
  · rintro ⟨v, hv, htext⟩
    exact ⟨e, v, he, hv, htext⟩

/-- An expression between the delimiters of an output is printed exactly if no two of its neighbours make a delimiter:
the template is read as one output, whose source is the expression without the white space around it, and in each scope
it is rendered to the text of the value of the expression, and fails only where there is no such text. -/
theorem expression_printed_iff {env : Environment} {source : String} {e : Expr} (name : String)
    (h : Expr.read source = .ok e) :
    (∃ t, env.parse (outputMarkup source) name = .ok t ∧ t.blocks = [.output (Text.trim source) 1] ∧
      ∀ s text, (env.renderTemplate t s).run'.1 = .ok text ↔ env.printed e s = .ok text) ↔ Undivided source.toList := by
  have hcontent := @content_outputMarkup env.registry name source (Expr.blank_of_read h)
  rw [← hcontent]
  constructor
  · rintro ⟨t, ht, hblocks, -⟩
    have hread := (read_eq_ok.1 (mapError_eq_ok.1 ht)).2
    rwa [hblocks] at hread
  · intro hread
    have ht : env.parse (outputMarkup source) name = .ok ⟨name, [.output (Text.trim source) 1]⟩ :=
      mapError_eq_ok.2 (read_eq_ok.2 ⟨rfl, hread⟩)
    exact ⟨_, ht, rfl, fun s text => renderTemplate_output_eq_ok rfl (Expr.read_trim h)⟩

/-- A mapping in a mapping, with a blank between the closing braces. -/
def nestedMapping : String :=
  " \x7b'a': \x7b'b': x | upper\x7d \x7d "

/-- What is read from it. -/
def nestedMappingExpr : Expr :=
  .dict [(.literal (.str "a"), .dict [(.literal (.str "b"), .filter (.name "x") "upper" [])])]

theorem expression_printed_iff_mapping :
    Expr.read nestedMapping = .ok nestedMappingExpr ∧ Undivided nestedMapping.toList ∧
    ∃ t s, (ofTexts []).parse (outputMarkup nestedMapping) "t" = .ok t ∧
      t.blocks = [.output "\x7b'a': \x7b'b': x | upper\x7d \x7d" 1] ∧
      (ofTexts []).makeScope (.dict [(.str "x", .str "y")]) = .ok s ∧
      ((ofTexts []).renderTemplate t s).run'.1 = .ok "\x7b'a': \x7b'b': 'Y'\x7d\x7d" := by
  have hread : Expr.read nestedMapping = .ok nestedMappingExpr := by with_unfolding_all rfl
  have hundivided : Undivided nestedMapping.toList := by decide +kernel
  obtain ⟨t, ht, hblocks, hrender⟩ := (@expression_printed_iff (ofTexts []) _ _ "t" hread).2 hundivided
  refine ⟨hread, hundivided, t, _, ht, hblocks, rfl, (hrender _ _).2 ?_⟩
  exact eq_ok_of_toOption (by decide +kernel)

/-- Where two braces meet, the template is cut between them. -/
theorem expression_not_printed :
    (∃ e, Expr.read "\x7ba: \x7b\x7d\x7d" = .ok e) ∧
      ¬ ∃ t, (ofTexts []).parse (outputMarkup "\x7ba: \x7b\x7d\x7d") "t" = .ok t := by
  have hread : Expr.read "\x7ba: \x7b\x7d\x7d" = .ok (.dict [(.name "a", .dict [])]) := by with_unfolding_all rfl
  refine ⟨⟨_, hread⟩, ?_⟩
  rintro ⟨t, ht⟩
  have hnone : ((ofTexts []).parse (outputMarkup "\x7ba: \x7b\x7d\x7d") "t").toOption.isSome = false := by decide +kernel
  rw [ht] at hnone
  cases hnone

end TemplateEngine.Environment

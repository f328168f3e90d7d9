/-
Places of errors. An error of evaluation that leaves a render comes from one visited block. That of an output, and that
of a fault in a tag, has the place of its block in front, once, however deep the block lies; the error of an expression
of a tag, and what a loop, the loader or a tag of the embedding program raises, is passed on as it is.
-/
import TemplateEngine.Proofs.Environment.Visits
import TemplateEngine.Proofs.Expr.Failures
import TemplateEngine.Proofs.Template.Places

namespace TemplateEngine

/-! ## Messages -/

/-- A text that starts with a place. -/
def StartsWithPlace (text : String) : Prop :=
  ∃ l : Location, l.text.toList <+: text.toList

theorem head?_append {a b : String} {c : Char} (h : a.toList.head? = some c) : (a ++ b).toList.head? = some c := by
  rw [String.toList_append, List.head?_append, h, Option.some_or]

theorem Location.head?_text (l : Location) : l.text.toList.head? = some '[' :=
  head?_append (head?_append (head?_append (head?_append rfl)))

theorem not_startsWithPlace {text : String} {c : Char} (h : text.toList.head? = some c) (hc : c ≠ '[') :
    ¬ StartsWithPlace text := by
  rintro ⟨l, rest, hrest⟩
  rw [← hrest, List.head?_append, l.head?_text] at h
  exact hc (Option.some.inj h).symm

/-- No error that evaluation or a loop raises has a place of its own. -/
theorem EvalError.not_startsWithPlace {e : EvalError} (h : e.isPlain = true) : ¬ StartsWithPlace e.message := by
  obtain ⟨c, hc, hne⟩ : ∃ c, e.message.toList.head? = some c ∧ c ≠ '[' := by
    cases e with
    | undefinedName name => exact ⟨'\'', head?_append (head?_append rfl), by decide⟩
    | undefinedMember name type => exact ⟨'A', head?_append (head?_append (head?_append (head?_append rfl))), by decide⟩
    | undefinedItem key type => exact ⟨'I', head?_append (head?_append (head?_append (head?_append rfl))), by decide⟩
    | memberRead name type f =>
      exact ⟨'E', head?_append (head?_append (head?_append (head?_append (head?_append rfl)))), by decide⟩
    | itemRead key type f =>
      exact ⟨'E', head?_append (head?_append (head?_append (head?_append (head?_append rfl)))), by decide⟩
    | itemKind type key f =>
      exact ⟨'C', head?_append (head?_append (head?_append (head?_append (head?_append rfl)))), by decide⟩
    | dictKey key f => exact ⟨'I', head?_append (head?_append (head?_append rfl)), by decide⟩
    | notCallable expression => exact ⟨'\'', head?_append (head?_append rfl), by decide⟩
    | unknownFilter name => exact ⟨'U', head?_append (head?_append rfl), by decide⟩
    | filterCall name f => exact ⟨'E', head?_append (head?_append (head?_append rfl)), by decide⟩
    | functionCall expression f => exact ⟨'E', head?_append (head?_append (head?_append rfl)), by decide⟩
    | unaryOperand symbol type => exact ⟨'B', head?_append (head?_append (head?_append rfl)), by decide⟩
    | operation expression f => exact ⟨'C', head?_append (head?_append (head?_append rfl)), by decide⟩
    | iteration type => exact ⟨'C', head?_append rfl, by decide⟩
    | unpacking item targets => exact ⟨'C', head?_append (head?_append (head?_append rfl)), by decide⟩
    | custom | located | outputSource | outputFault | tagFault => cases h
  exact TemplateEngine.not_startsWithPlace hc hne

theorem EvalError.message_outputSource (l : Location) (source : String) (e : ExprError) :
    (outputSource l source e).message = l.text ++ (outputMarkup source ++ ": " ++ e.message) := by
  rw [← String.append_assoc, ← String.append_assoc]
  rfl

theorem EvalError.message_outputFault (l : Location) (source : String) (f : Fault) : (outputFault l source f).message =
    l.text ++ ("Error rendering " ++ outputMarkup source ++ ": " ++ f.message) := by
  rw [← String.append_assoc, ← String.append_assoc, ← String.append_assoc]
  rfl

theorem EvalError.message_tagFault (l : Location) (m : TagMarkup) (f : Fault) : (tagFault l m f).message =
    l.text ++ ("Error rendering " ++ m.text ++ ": " ++ f.message) := by
  rw [← String.append_assoc, ← String.append_assoc, ← String.append_assoc]
  rfl

theorem head?_outputMarkup (source : String) : (outputMarkup source).toList.head? = some '\x7b' :=
  head?_append (head?_append (by rfl))

namespace Environment

variable {env : Environment}

/-- A text that starts with no place, unless a callable of the embedding program raised it. -/
def Unplaced (env : Environment) (text : String) : Prop :=
  StartsWithPlace text → ∃ name args e, env.host.call name args = .error (.evaluation e) ∧ e.message = text

/-- A message with one place in front. -/
def OncePlaced (env : Environment) (l : Location) (message : String) : Prop :=
  ∃ rest, message = l.text ++ rest ∧ env.Unplaced rest

theorem unplaced_of_head {text : String} {c : Char} (h : text.toList.head? = some c) (hc : c ≠ '[') : env.Unplaced text :=
  fun hplace => absurd hplace (not_startsWithPlace h hc)

theorem unplaced_rendering (markup fault : String) : env.Unplaced ("Error rendering " ++ markup ++ ": " ++ fault) :=
  unplaced_of_head (head?_append (head?_append (head?_append rfl))) (by decide : 'E' ≠ '[')

/-- An error of an expression has no place of its own. -/
theorem unplaced_of_evaluate {x : Expr} {s : Scope} {e : EvalError} (h : env.evaluate x s = .error (.evaluation e)) :
    env.Unplaced e.message := by
  intro hplace
  cases Evaluator.mayFail_eval x h with
  | plain hplain => exact absurd hplace (EvalError.not_startsWithPlace hplain)
  | host hhost hf => exact ⟨_, _, e, hhost, rfl⟩

/-! ## Errors at a visit -/

/-- An error that a visited block raises with its place in front: the source of an output is no expression, or the
expression has no value, or there is a fault. -/
inductive Located (env : Environment) : Visit → EvalError → Prop
  | source {depth : Nat} {t : Template} {source : String} {line : Nat} {s : Scope} {selector : Selector} {e : ExprError} :
      Located env ⟨depth, t, .output source line, s, selector⟩ (.outputSource ⟨t.name, line⟩ source e)
  | value {depth : Nat} {t : Template} {source : String} {line : Nat} {s : Scope} {selector : Selector} {x : Expr}
      {e : EvalError} (hx : Expr.read source = .ok x) (he : env.evaluate x s = .error (.evaluation e)) :
      Located env ⟨depth, t, .output source line, s, selector⟩ (.located ⟨t.name, line⟩ e)
  | outputFault {depth : Nat} {t : Template} {source : String} {line : Nat} {s : Scope} {selector : Selector} {f : Fault} :
      Located env ⟨depth, t, .output source line, s, selector⟩ (.outputFault ⟨t.name, line⟩ source f)
  | tagFault {depth : Nat} {t : Template} {p : TagPlugin} {tag : Tag} {cs : List Block} {s : Scope} {selector : Selector}
      {f : Fault} :
      Located env ⟨depth, t, .tag p tag cs, s, selector⟩ (.tagFault ⟨t.name, tag.line⟩ tag.markup f)

/-- An error that leaves a visited tag as it was raised: that of an expression that the tag evaluates, or that of a loop. -/
inductive Passed (env : Environment) (v : Visit) (e : EvalError) : Prop
  | value {x : Expr} {s : Scope} (h : env.AsksFor v (.value x s)) (he : env.evaluate x s = .error (.evaluation e))
  | iteration {tag : Tag} {cs : List Block} {type : String} (hv : v.block = .tag ForTag.plugin tag cs)
      (he : e = .iteration type)
  | unpacking {tag : Tag} {cs : List Block} {shown : String} {targets : List String}
      (hv : v.block = .tag ForTag.plugin tag cs) (he : e = .unpacking shown targets)

/-- An error that code of the embedding program raises at a visited tag: the loader, for a template that the tag includes,
or a tag that is not built in. -/
inductive Foreign (env : Environment) (v : Visit) (e : EvalError) : Prop
  | loader {id base : String} {s : Scope} (h : env.AsksFor v (.template id s base))
      (he : env.loader.load id (some base) = .error (.evaluation e))
  | tag {p : TagPlugin} {tag : Tag} {cs : List Block} (hv : v.block = .tag p tag cs) (hp : p ∉ builtinTags)

/-- An error at a visit with what it says of the line of the visited block. -/
inductive ErrorAt (env : Environment) (v : Visit) (line : Nat) (e : EvalError) : Prop
  | located (h : env.Located v e) (hm : env.OncePlaced ⟨v.template.name, line⟩ e.message)
  | passed (h : env.Passed v e) (hm : env.Unplaced e.message)
  | foreign (h : env.Foreign v e)

/-- What a visited block fails with says where the block stands, or is passed on. -/
theorem Fails.errorAt {v : Visit} {failure : Failure} {e : EvalError} (h : env.Fails v failure)
    (hfailure : failure = .evaluation e) : ∃ line, v.block.line? = some line ∧ env.ErrorAt v line e := by
  have htag {depth : Nat} {t : Template} {p : TagPlugin} {tag : Tag} {cs : List Block} {s : Scope} {selector : Selector}
      {f : Fault} (he : e = .tagFault ⟨t.name, tag.line⟩ tag.markup f) :
      env.ErrorAt ⟨depth, t, .tag p tag cs, s, selector⟩ tag.line e := by
    rw [he]
    exact .located .tagFault ⟨_, EvalError.message_tagFault .., unplaced_rendering _ _⟩
  cases h with
  | output h =>
    rw [hfailure] at h
    refine ⟨_, rfl, ?_⟩
    rcases outputText_eq_error h with ⟨e', rfl⟩ | ⟨x, e', hx, he, rfl⟩ | ⟨f, rfl⟩
    · exact .located .source ⟨_, EvalError.message_outputSource .., unplaced_of_head
        (head?_append (head?_append (head?_outputMarkup _))) (by decide : '\x7b' ≠ '[')⟩
    · rw [evaluate_services] at he
      exact .located (.value hx he) ⟨_, rfl, unplaced_of_evaluate he⟩
    · exact .located .outputFault ⟨_, EvalError.message_outputFault .., unplaced_rendering _ _⟩
  | raised hf h =>
    refine ⟨_, rfl, ?_⟩
    rcases Failure.atTag_eq_evaluation hfailure with ⟨f, he⟩ | rfl
    · exact htag he
    · cases hf with
      | builtin hf =>
        rcases hf.raises h with ⟨f, hf⟩ | ⟨rfl, ⟨type, he⟩ | ⟨shown, targets, he⟩⟩
        · cases hf
        · cases he
          exact .passed (.iteration rfl rfl) fun h => absurd h (EvalError.not_startsWithPlace rfl)
        · cases he
          exact .passed (.unpacking rfl rfl) fun h => absurd h (EvalError.not_startsWithPlace rfl)
      | custom hp hf => exact .foreign (.tag rfl hp)
  | unscripted hno h =>
    refine ⟨_, rfl, ?_⟩
    rcases Failure.atTag_eq_evaluation hfailure with ⟨f, he⟩ | rfl
    · exact htag he
    · refine .foreign (.tag rfl fun hp => ?_)
      obtain ⟨f, hf⟩ := exists_script hp
      exact hno f (.builtin hf)
  | value hask h =>
    refine ⟨_, rfl, ?_⟩
    rcases Failure.atTag_eq_evaluation hfailure with ⟨f, he⟩ | rfl
    · exact htag he
    · exact .passed (.value hask h) (unplaced_of_evaluate h)
  | unloaded hask h =>
    refine ⟨_, rfl, ?_⟩
    rcases Failure.atTag_eq_evaluation hfailure with ⟨f, he⟩ | rfl
    · exact htag he
    · exact .foreign (.loader hask (readLoaded_eq_evaluation h))
  | tooDeep hask =>
    cases hfailure
    exact ⟨_, rfl, htag rfl⟩

/-! ## Renders -/

/-- In the render of the text `source` of the template `name`, a block is visited that starts on a line of the text of its
template: that text itself, or one that the loader gave for the name of the template. -/
structure VisitsAt (env : Environment) (source name : String) (s : Scope) (v : Visit) (line : Nat) : Prop where
  visited : ∃ t, Template.read env.registry source name = .ok t ∧ env.Visits t s v
  stands : ∃ text, Template.read env.registry text v.template.name = .ok v.template ∧ v.block.StandsAt text line ∧
    (v.template.name = name ∧ text = source ∨ ∃ base, env.loader.load v.template.name (some base) = .ok (.str text))

/-- The text of the template in which a visited block stands. -/
theorem Visits.exists_text {source name : String} {t : Template} {s : Scope} {v : Visit}
    (ht : Template.read env.registry source name = .ok t) (h : env.Visits t s v) :
    ∃ text, Template.read env.registry text v.template.name = .ok v.template ∧
      (v.template.name = name ∧ text = source ∨
        ∃ base, env.loader.load v.template.name (some base) = .ok (.str text)) := by
  induction h with
  | root hb =>
    obtain ⟨rfl, -⟩ := Template.read_eq_ok.1 ht
    exact ⟨source, ht, .inl ⟨rfl, rfl⟩⟩
  | next h hn ih =>
    cases hn with
    | child hask hb hc => exact ih
    | included hask hl hb =>
      obtain ⟨text, hload, hparse⟩ := readLoaded_eq_ok.1 hl
      have hread := mapError_eq_ok.1 hparse
      obtain ⟨rfl, -⟩ := Template.read_eq_ok.1 hread
      exact ⟨text, hread, .inr ⟨_, hload⟩⟩

/-- The render of a template that was read fails at one of its visits. -/
theorem exists_errorAt {source name : String} {t : Template} {s : Scope} {calls : List LoaderCall} {e : EvalError}
    (ht : Template.read env.registry source name = .ok t)
    (h : (env.renderTemplate t s).resultAfter calls = .error (.evaluation e)) :
    ∃ v line, env.VisitsAt source name s v line ∧ env.Fails v (.evaluation e) ∧ env.ErrorAt v line e := by
  have hreads : env.Reads t := ⟨source, name, ht⟩
  obtain ⟨v, hv, hfails⟩ := exists_fails hreads h
  obtain ⟨line, hline, herror⟩ := hfails.errorAt rfl
  obtain ⟨text, hread, horigin⟩ := hv.exists_text ht
  exact ⟨v, line, ⟨⟨t, ht, hv⟩, text, hread, (hv.occurs hreads).2.standsAt hline hread, horigin⟩, hfails,
    herror⟩

/-- Each error of evaluation that leaves a render, of a text or of an id, is that of an output or a tag that was visited
and failed, in the template or in what it includes. If an output raised it, or a fault in a tag, its message has one
place in front: the name of the template in whose text the block stands, and the line on which it starts there. The
errors of the expression of a tag and of a loop leave all tags around them as they are, and have no place; those that the
loader or a tag of the embedding program raises leave them as they are, too, whatever their messages say. -/
theorem errors_located (env : Environment) :
    (∀ source context name calls e, (env.renderString source context name).resultAfter calls = .error (.evaluation e) →
      ∃ s v line, env.makeScope context = .ok s ∧ env.VisitsAt source name s v line ∧ env.Fails v (.evaluation e) ∧
        env.ErrorAt v line e) ∧
    (∀ id context calls e, (env.render id context).resultAfter calls = .error (.evaluation e) →
      env.loader.load id none = .error (.evaluation e) ∨ ∃ source s v line,
        env.loader.load id none = .ok (.str source) ∧ env.makeScope context = .ok s ∧
          env.VisitsAt source id s v line ∧ env.Fails v (.evaluation e) ∧ env.ErrorAt v line e) := by
  constructor
  · intro source context name calls e h
    rcases renderString_eq_error h with ⟨e', he⟩ | ⟨f, hf⟩ | ⟨t, s, ht, hs, calls', h⟩
    · cases he
    · cases hf
    · obtain ⟨v, line, herror⟩ := exists_errorAt (mapError_eq_ok.1 ht) h
      exact ⟨s, v, line, hs, herror⟩
  · intro id context calls e h
    rcases render_eq_error h with h | ⟨f, hf⟩ | ⟨t, s, ht, hs, calls', h⟩
    · exact .inl (readLoaded_eq_evaluation h)
    · cases hf
    · obtain ⟨source, hload, hparse⟩ := readLoaded_eq_ok.1 ht
      obtain ⟨v, line, herror⟩ := exists_errorAt (mapError_eq_ok.1 hparse) h
      exact .inr ⟨source, s, v, line, hload, hs, herror⟩

/-- The template `page`, `{% if 1 %}{% include 'part' %}{% endif %}`, and the template `part`, which starts with a line
end in front of `{{ x }}`. -/
def locatedTexts : List (String × String) :=
  [("page", "\x7b% if 1 %\x7d\x7b% include 'part' %\x7d\x7b% endif %\x7d"), ("part", "\n\x7b\x7b x \x7d\x7d")]

theorem errors_located_included :
    ((ofTexts locatedTexts).render "page" .none).resultAfter [] =
        .error (.evaluation (.located ⟨"part", 2⟩ (.undefinedName "x"))) ∧
      ((ofTexts locatedTexts).loader.load "page" none =
          .error (.evaluation (.located ⟨"part", 2⟩ (.undefinedName "x"))) ∨
        ∃ source s v line, (ofTexts locatedTexts).loader.load "page" none = .ok (.str source) ∧
          (ofTexts locatedTexts).makeScope .none = .ok s ∧ (ofTexts locatedTexts).VisitsAt source "page" s v line ∧
          (ofTexts locatedTexts).Fails v (.evaluation (.located ⟨"part", 2⟩ (.undefinedName "x"))) ∧
          (ofTexts locatedTexts).ErrorAt v line (.located ⟨"part", 2⟩ (.undefinedName "x"))) := by
  have h : ((ofTexts locatedTexts).render "page" .none).resultAfter [] =
      .error (.evaluation (.located ⟨"part", 2⟩ (.undefinedName "x"))) :=
    eq_error_of_failure? (by decide +kernel)
  exact ⟨h, (errors_located (ofTexts locatedTexts)).2 _ _ _ _ h⟩

/-- The error of a condition has no place: that of `{% if x %}{% endif %}`. -/
theorem errors_not_located :
    ((ofTexts []).renderString "\x7b% if x %\x7d\x7b% endif %\x7d" .none "t").resultAfter [] =
        .error (.evaluation (.undefinedName "x")) ∧
      ¬ StartsWithPlace (EvalError.undefinedName "x").message :=
  ⟨eq_error_of_failure? (by decide +kernel), EvalError.not_startsWithPlace rfl⟩

end Environment

end TemplateEngine

/-
Environments that render what other ones render. The lenient policy for what is not defined is one of them:
a text that is rendered under the strict policy is rendered under it too, since its values are the same and
the families of tags see nothing else.
-/
import TemplateEngine.Environment.Render
import TemplateEngine.Proofs.Template.Reread

namespace TemplateEngine

namespace Environment

open Template

variable {names : String → String → Prop} {env env' : Environment}

/-! ## Templates that are read -/

/-- A template that was read with the tags of an environment. -/
def Reads (env : Environment) (t : Template) : Prop :=
  ∃ text name, Template.read env.registry text name = .ok t

/-- Only a text that can be parsed is a template. -/
theorem readLoaded_eq_ok {id : String} {r : Except Failure Value} {t : Template} :
    env.readLoaded id r = .ok t ↔ ∃ text, r = .ok (.str text) ∧ env.parse text id = .ok t := by
  constructor
  · intro h
    cases r with
    | error failure => cases failure <;> cases h
    | ok v =>
      cases v with
      | str text => exact ⟨text, rfl, h⟩
      | _ => cases h
  · rintro ⟨text, rfl, h⟩
    exact h

theorem parse_eq_ok_gives {source name : String} {t : Template} :
    env.parse source name = .ok t ↔ t.name = name ∧ Gives env.registry name (pieces source.toList) t.blocks :=
  mapError_eq_ok.trans read_eq_ok_gives

theorem reads_of_parse {source name : String} {t : Template} (h : env.parse source name = .ok t) : env.Reads t :=
  ⟨source, name, mapError_eq_ok.1 h⟩

theorem Reads.rowsAlike {t : Template} (h : env.Reads t) (hreg : env.registry.Reachable)
    (hb : env.registry.OnlyBuiltin) (hn : ∀ name, names name name) (base : List Block → List Block → Prop) :
    RowsAlike names base t.blocks t.blocks := by
  obtain ⟨text, name, h⟩ := h
  have hcovers : (RowsAlike.congruence names base).Covers env.registry := RowsAlike.covers hreg hb
  exact (read_eq_ok_gives.1 h).2.rows_self hcovers (hn name) fun _ => trivial

/-! ## Environments that extend other ones -/

/-- An environment has the tags, the filters and the functions of another one, gives the values that it
gives, and loads the same templates for names that are related. -/
structure Extends (names : String → String → Prop) (env' env : Environment) : Prop where
  registry : env'.registry = env.registry
  globalScope : env'.globalScope = env.globalScope
  evaluate : ∀ e s s' v, s.Agree s' → env.evaluate e s = .ok v → env'.evaluate e s' = .ok v
  load : ∀ id base base', names base base' → env'.loader.load id (some base') = env.loader.load id (some base)
  names : ∀ name, names name name

section

variable (h : env'.Extends names env) (hreg : env.registry.Reachable) (hb : env.registry.OnlyBuiltin)

include h

theorem Extends.parse (source name : String) : env'.parse source name = env.parse source name := by
  unfold Environment.parse
  rw [h.registry]

theorem Extends.readLoaded (id : String) : env'.readLoaded id = env.readLoaded id := by
  funext r
  unfold Environment.readLoaded
  simp only [h.parse]

theorem Extends.makeScope : env'.makeScope = env.makeScope := by
  funext context
  unfold Environment.makeScope
  rw [h.globalScope]

/-- What is loaded is the same template. -/
theorem Extends.refines_load {id : String} {base base' : Option String}
    (hl : env'.loader.load id base' = env.loader.load id base) :
    Refines (fun t t' => t = t' ∧ env.Reads t) (env.load id base) (env'.load id base') := by
  intro calls t ht
  have hread : env.readLoaded id (env.loader.load id base) = .ok t := ht
  obtain ⟨text, -, hparse⟩ := readLoaded_eq_ok.1 hread
  refine ⟨t, ⟨rfl, reads_of_parse hparse⟩, fun calls' => ?_⟩
  show env'.readLoaded id (env'.loader.load id base') = .ok t
  rw [h.readLoaded, hl, hread]

include hreg hb

/-- By induction on the includes that may be open. -/
theorem Extends.services {depth depth' : Nat} (hd : depth ≤ depth') :
    (env.services depth).Refine names (env'.services depth') := by
  induction depth generalizing depth' with
  | zero =>
    -- no include may be open, so that none succeeds
    cases depth' with
    | zero => exact ⟨h.evaluate, fun _ _ _ _ _ _ _ => refines_throw⟩
    | succ depth' => exact ⟨h.evaluate, fun _ _ _ _ _ _ _ => refines_throw⟩
  | succ depth ih =>
    obtain ⟨depth', rfl⟩ : ∃ d, depth' = d + 1 := ⟨depth' - 1, by omega⟩
    refine ⟨h.evaluate, fun id s s' base base' hs hbase => ?_⟩
    refine refines_bind (h.refines_load (h.load id base base' hbase)) ?_
    rintro t _ ⟨rfl, ht⟩
    have hrows := ht.rowsAlike hreg hb h.names fun _ _ => False
    -- what the template includes in turn is one deeper in both environments
    exact hrows.refine (ih (by omega)) (fun _ _ => False.elim) _ _ _ _ _ _ (hs.child [])

theorem Extends.refines_renderTemplate (hd : env.includeDepth ≤ env'.includeDepth) {t : Template} (ht : env.Reads t)
    (s : Scope) : Refines Eq (env.renderTemplate t s) (env'.renderTemplate t s) := by
  have hrows := ht.rowsAlike hreg hb h.names fun _ _ => False
  exact hrows.refine (h.services hreg hb hd) (fun _ _ => False.elim) _ _ _ _ _ _ (.refl s)

theorem Extends.refines_renderString (hd : env.includeDepth ≤ env'.includeDepth) (source : String) (context : Value)
    (name : String) : Refines Eq (env.renderString source context name) (env'.renderString source context name) := by
  unfold renderString
  rw [h.parse, h.makeScope]
  refine refines_bind (R := fun t t' => t = t' ∧ env.Reads t) ?_ ?_
  · exact fun calls t ht => ⟨t, ⟨rfl, reads_of_parse ht⟩, fun _ => ht⟩
  · rintro t _ ⟨rfl, ht⟩
    refine refines_bind (refines_ofResult_self _) ?_
    rintro s _ rfl
    exact h.refines_renderTemplate hreg hb hd ht s

theorem Extends.refines_render (hl : env'.loader = env.loader) (hd : env.includeDepth ≤ env'.includeDepth) (id : String)
    (context : Value) : Refines Eq (env.render id context) (env'.render id context) := by
  unfold render
  rw [h.makeScope]
  refine refines_bind (h.refines_load (by rw [hl])) ?_
  rintro t _ ⟨rfl, ht⟩
  refine refines_bind (refines_ofResult_self _) ?_
  rintro s _ rfl
  exact h.refines_renderTemplate hreg hb hd ht s

end

/-! ## The lenient policy -/

theorem lenient_extends (env : Environment) (hnone : ∀ n, env.host.attributes .none n = .missing) :
    { env with undefined := .lenient }.Extends Eq { env with undefined := .strict } where
  registry := rfl
  globalScope := rfl
  evaluate e :=
    have hev : (⟨env.host, .lenient⟩ : Evaluator).Extends ⟨env.host, .strict⟩ := ⟨rfl, .inr ⟨rfl, hnone⟩⟩
    Evaluator.eval_extends hev e
  load := by
    rintro id base _ rfl
    rfl
  names _ := rfl

/-- What the strict policy gives, the lenient one gives: the value of an expression in any scope, and the
text of a template, from its source or by its id, for any context. No attribute of `none` may be there, since the lenient
policy reads all of them as `none`. -/
theorem lenient_of_strict (env : Environment) (hreg : env.registry.Reachable) (hb : env.registry.OnlyBuiltin)
    (hnone : ∀ n, env.host.attributes .none n = .missing) :
    (∀ e s v, { env with undefined := .strict }.evaluate e s = .ok v →
      { env with undefined := .lenient }.evaluate e s = .ok v) ∧
    (∀ source context name text, ({ env with undefined := .strict }.renderString source context name).run'.1 = .ok text →
      ({ env with undefined := .lenient }.renderString source context name).run'.1 = .ok text) ∧
    (∀ id context text, ({ env with undefined := .strict }.render id context).run'.1 = .ok text →
      ({ env with undefined := .lenient }.render id context).run'.1 = .ok text) := by
  have h := lenient_extends env hnone
  refine ⟨fun e s v => h.evaluate e s s v (.refl s), fun source context name text ht => ?_, fun id context text ht => ?_⟩
  · obtain ⟨_, rfl, hlenient⟩ := h.refines_renderString hreg hb le_rfl source context name [] text ht
    exact hlenient []
  · obtain ⟨_, rfl, hlenient⟩ := h.refines_render hreg hb rfl le_rfl id context [] text ht
    exact hlenient []

/-- An environment whose loader knows the text `{{ x.a }}` as `p`. -/
def partialEnvironment : Environment where
  loader := .ofTexts [("p", "\x7b\x7b x.a \x7d\x7d")]

/-- The text `{% if x %}{% include 'p' %}{% endif %}`. -/
def partialText : String :=
  "\x7b% if x %\x7d\x7b% include 'p' %\x7d\x7b% endif %\x7d"

/-- A mapping of `x` to a mapping of `a` to a text. -/
def partialContext : Value :=
  .dict [(.str "x", .dict [(.str "a", .str "t")])]

theorem lenient_of_strict_partial :
    partialEnvironment.registry.Reachable ∧ partialEnvironment.registry.OnlyBuiltin ∧
    (∀ n, partialEnvironment.host.attributes .none n = .missing) ∧
    ({ partialEnvironment with undefined := .strict }.renderString partialText partialContext).run'.1 = .ok "t" ∧
    ({ partialEnvironment with undefined := .lenient }.renderString partialText partialContext).run'.1 = .ok "t" := by
  have hstrict : ({ partialEnvironment with undefined := .strict }.renderString partialText partialContext).run'.1 =
      .ok "t" :=
    eq_ok_of_toOption (by decide +kernel)
  have h := lenient_of_strict partialEnvironment reachable_builtinRegistry onlyBuiltin_builtinRegistry fun _ => rfl
  exact ⟨reachable_builtinRegistry, onlyBuiltin_builtinRegistry, fun _ => rfl, hstrict, h.2.1 _ _ _ _ hstrict⟩

end Environment

end TemplateEngine

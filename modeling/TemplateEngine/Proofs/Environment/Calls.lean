/-
What a render asks of the loader. A render does its work in the order of the document: blocks one after the other, what a
tag asks for where it asks for it, and a template where it is included. Each call of the loader is made by an include
that is executed so, in the name of the template in which it stands; that template is the one that is rendered, or one
that an earlier call has given. The first failure ends the work.
-/
import TemplateEngine.Proofs.Environment.Choices

namespace TemplateEngine

open Template

/-! ## Renders by their calls -/

/-- A render has a result and makes calls, whatever was called before. -/
def Render.Does {α : Type} (x : Render α) (r : Except Failure α) (made : List LoaderCall) : Prop :=
  ∀ calls, (ExceptT.run x).run calls = (r, calls ++ made)

namespace Render.Does

variable {α β : Type} {x : Render α} {made made' : List LoaderCall}

theorem ofResult (r : Except Failure α) : (Render.ofResult r).Does r [] := by
  intro calls
  rw [List.append_nil]
  rfl

theorem pure (a : α) : (Pure.pure a : Render α).Does (.ok a) [] :=
  ofResult (.ok a)

theorem throw (failure : Failure) : (MonadExcept.throw failure : Render α).Does (.error failure) [] :=
  ofResult (.error failure)

theorem bind {a : α} {f : α → Render β} {r : Except Failure β} (hx : x.Does (.ok a) made) (hf : (f a).Does r made') :
    (x >>= f).Does r (made ++ made') := by
  intro calls
  rw [ExceptT.run_bind, StateT.run_bind, hx calls, ← List.append_assoc]
  exact hf _

theorem bind_error {failure : Failure} (hx : x.Does (.error failure) made) (f : α → Render β) :
    (x >>= f).Does (.error failure) made := by
  intro calls
  rw [ExceptT.run_bind, StateT.run_bind, hx calls]
  rfl

/-- Two texts are put together if the second one is given. -/
theorem append {x y : Render String} {text : String} {r : Except Failure String} (hx : x.Does (.ok text) made)
    (hy : y.Does r made') :
    (do let text ← x; let rest ← y; return text ++ rest : Render String).Does (r.map (text ++ ·)) (made ++ made') := by
  refine hx.bind ?_
  cases r with
  | error failure => exact hy.bind_error _
  | ok rest =>
    rw [← List.append_nil made']
    exact hy.bind (.pure _)

theorem describeTag {x : Render String} {r : Except Failure String} (hx : x.Does r made) (name : String) (tag : Tag) :
    (TemplateEngine.describeTag name tag x).Does (r.mapError (Failure.atTag name tag)) made := by
  intro calls
  rw [run_describeTag, hx calls]

theorem resultAfter {r : Except Failure α} (hx : x.Does r made) (calls : List LoaderCall) : x.resultAfter calls = r :=
  congrArg Prod.fst (hx calls)

theorem run' {r : Except Failure α} (hx : x.Does r made) : x.run' = (r, made) :=
  hx []

end Render.Does

namespace Environment

/-! ## Work -/

/-- What a render does: it visits a block or a row of blocks, runs what is left of the script of a visited tag, or answers
what the tag asks for. -/
inductive Work where
  | visit (v : Visit)
  | row (depth : Nat) (t : Template) (choice : ChildChoice) (bs : List Block) (s : Scope) (selector : Selector)
  | script (v : Visit) (cs : List Block) (left : Script)
  | request (v : Visit) (cs : List Block) (q : Request)

/-- What comes out of work. -/
def Work.Result : Work → Type
  | visit _ => String
  | row _ _ _ _ _ _ => String
  | script _ _ _ => String
  | request _ _ q => q.Answer

/-- The template in which work is done. -/
def Work.template : Work → Template
  | visit v => v.template
  | row _ t _ _ _ _ => t
  | script v _ _ => v.template
  | request v _ _ => v.template

/-- The work, as a render does it. -/
def Work.render (env : Environment) : (w : Work) → Render w.Result
  | visit v => renderBlock (env.services v.depth) v.template.name v.block v.scope v.selector
  | row depth t choice bs s selector => renderBlocks (env.services depth) t.name choice bs s selector
  | script v cs left => left.run (env.services v.depth) (env.childrenOf v.depth v.template cs)
  | request v cs q => q.answer (env.services v.depth) (env.childrenOf v.depth v.template cs)

/-- What happens as work is done: a visited include calls the loader, or something fails. -/
inductive Event where
  | call (v : Visit) (id base : String)
  | failed (failure : Failure)

/-- The call of the loader that an event is. -/
def Event.call? : Event → Option LoaderCall
  | call _ id base => some ⟨id, some base⟩
  | failed _ => none

/-- The calls of the loader among some events. -/
def calls (log : List Event) : List LoaderCall :=
  log.filterMap Event.call?

/-- The event that a result is. -/
def failureOf {α : Type} : Except Failure α → List Event
  | .ok _ => []
  | .error failure => [.failed failure]

/-- The failure of an include where no more may be open. -/
def tooDeep : Failure :=
  .fault (.foreign .runtime "maximum recursion depth exceeded")

/-- Work that is done, what happens meanwhile, and what comes out of it. Parts are done one after the other, and the first
one that fails is the last one. -/
inductive Executes (env : Environment) : (w : Work) → List Event → Except Failure w.Result → Prop
  | text {depth : Nat} {t : Template} {text : String} {s : Scope} {selector : Selector} :
      Executes env (.visit ⟨depth, t, .text text, s, selector⟩) [] (.ok text)
  | output {depth : Nat} {t : Template} {source : String} {line : Nat} {s : Scope} {selector : Selector}
      {r : Except Failure String} (h : (outputText (env.services depth) t.name source line s).resultAfter [] = r) :
      Executes env (.visit ⟨depth, t, .output source line, s, selector⟩) (failureOf r) r
  | tag {depth : Nat} {t : Template} {p : TagPlugin} {tag : Tag} {cs : List Block} {s : Scope} {selector : Selector}
      {f : Tag → Scope → Selector → Script} {log : List Event} {r : Except Failure String} (hf : p.Scripted f)
      (h : Executes env (.script ⟨depth, t, .tag p tag cs, s, selector⟩ cs (f tag s selector)) log r) :
      Executes env (.visit ⟨depth, t, .tag p tag cs, s, selector⟩) log (r.mapError (Failure.atTag t.name tag))
  | done {v : Visit} {cs : List Block} {text : String} : Executes env (.script v cs (.done text)) [] (.ok text)
  | fail {v : Visit} {cs : List Block} {failure : Failure} :
      Executes env (.script v cs (.fail failure)) [.failed failure] (.error failure)
  | ask {v : Visit} {cs : List Block} {q : Request} {next : q.Answer → Script} {a : q.Answer} {log log' : List Event}
      {r : Except Failure String} (h : Executes env (.request v cs q) log (.ok a))
      (h' : Executes env (.script v cs (next a)) log' r) : Executes env (.script v cs (.ask q next)) (log ++ log') r
  | unanswered {v : Visit} {cs : List Block} {q : Request} {next : q.Answer → Script} {failure : Failure}
      {log : List Event} (h : Executes env (.request v cs q) log (.error failure)) :
      Executes env (.script v cs (.ask q next)) log (.error failure)
  | value {v : Visit} {cs : List Block} {e : Expr} {s : Scope} :
      Executes env (.request v cs (.value e s)) (failureOf (env.evaluate e s)) (env.evaluate e s)
  | children {v : Visit} {cs : List Block} {s : Scope} {selector : Selector} {choice : ChildChoice} {log : List Event}
      {r : Except Failure String} (h : Executes env (.row v.depth v.template choice cs s selector) log r) :
      Executes env (.request v cs (.children s selector choice)) log r
  | tooDeep {t : Template} {b : Block} {s s' : Scope} {selector : Selector} {cs : List Block} {id base : String} :
      Executes env (.request ⟨0, t, b, s, selector⟩ cs (.template id s' base)) [.failed tooDeep] (.error tooDeep)
  | unloaded {depth : Nat} {t : Template} {b : Block} {s s' : Scope} {selector : Selector} {cs : List Block}
      {id base : String} {failure : Failure} (hl : env.readLoaded id (env.loader.load id (some base)) = .error failure) :
      Executes env (.request ⟨depth + 1, t, b, s, selector⟩ cs (.template id s' base))
        [.call ⟨depth + 1, t, b, s, selector⟩ id base, .failed failure] (.error failure)
  | included {depth : Nat} {t t' : Template} {b : Block} {s s' : Scope} {selector : Selector} {cs : List Block}
      {id base : String} {log : List Event} {r : Except Failure String}
      (hl : env.readLoaded id (env.loader.load id (some base)) = .ok t')
      (h : Executes env (.row depth t' .all t'.blocks (s'.child []) .absent) log r) :
      Executes env (.request ⟨depth + 1, t, b, s, selector⟩ cs (.template id s' base))
        (.call ⟨depth + 1, t, b, s, selector⟩ id base :: log) r
  | nil {depth : Nat} {t : Template} {choice : ChildChoice} {s : Scope} {selector : Selector} :
      Executes env (.row depth t choice [] s selector) [] (.ok "")
  | skip {depth : Nat} {t : Template} {choice : ChildChoice} {b : Block} {bs : List Block} {s : Scope}
      {selector : Selector} {log : List Event} {r : Except Failure String}
      (hb : choice = .insideTags ∧ b.isInside = false) (h : Executes env (.row depth t choice bs s selector) log r) :
      Executes env (.row depth t choice (b :: bs) s selector) log r
  | cons {depth : Nat} {t : Template} {choice : ChildChoice} {b : Block} {bs : List Block} {s : Scope}
      {selector : Selector} {text : String} {log log' : List Event} {r : Except Failure String}
      (hb : choice = .insideTags → b.isInside = true)
      (h : Executes env (.visit ⟨depth, t, b, s, selector⟩) log (.ok text))
      (h' : Executes env (.row depth t choice bs s selector) log' r) :
      Executes env (.row depth t choice (b :: bs) s selector) (log ++ log') (r.map (text ++ ·))
  | stop {depth : Nat} {t : Template} {choice : ChildChoice} {b : Block} {bs : List Block} {s : Scope}
      {selector : Selector} {failure : Failure} {log : List Event}
      (hb : choice = .insideTags → b.isInside = true)
      (h : Executes env (.visit ⟨depth, t, b, s, selector⟩) log (.error failure)) :
      Executes env (.row depth t choice (b :: bs) s selector) log (.error failure)

/-! ## Renders as work -/

section

variable {env : Environment} {t₀ : Template} {s₀ : Scope} {depth : Nat} {t : Template} {s : Scope} {selector : Selector}

theorem calls_append (log log' : List Event) : calls (log ++ log') = calls log ++ calls log' :=
  List.filterMap_append

@[simp] theorem calls_failureOf {α : Type} (r : Except Failure α) : calls (failureOf r) = [] := by
  cases r <;> rfl

/-- A call is made by a visited tag that asks for a template. -/
def Event.MadeWithin (env : Environment) (t₀ : Template) (s₀ : Scope) : Event → Prop
  | call v id base => env.Visits t₀ s₀ v ∧ ∃ s, env.AsksFor v (.template id s base)
  | failed _ => True

theorem madeWithin_failureOf {α : Type} (r : Except Failure α) : ∀ e ∈ failureOf r, e.MadeWithin env t₀ s₀ := by
  intro e he
  cases r with
  | ok a => cases he
  | error failure =>
    cases List.mem_singleton.1 he
    trivial

/-- Work is done in a render of a template, and its calls are those of what happens. -/
def Goes (env : Environment) (t₀ : Template) (s₀ : Scope) (w : Work) : Prop :=
  ∃ log r, env.Executes w log r ∧ (w.render env).Does r (calls log) ∧ ∀ e ∈ log, e.MadeWithin env t₀ s₀

theorem goes_row {choice : ChildChoice} {bs : List Block}
    (h : ∀ b ∈ bs, (choice = .insideTags → b.isInside = true) → env.Goes t₀ s₀ (.visit ⟨depth, t, b, s, selector⟩)) :
    env.Goes t₀ s₀ (.row depth t choice bs s selector) := by
  induction bs with
  | nil => exact ⟨[], .ok "", .nil, .pure "", List.forall_mem_nil _⟩
  | cons b bs ih =>
    obtain ⟨log', (r' : Except Failure String), hrest, hdoes', hmade'⟩ :=
      ih fun b' hb' => h b' (List.mem_cons_of_mem _ hb')
    by_cases hb : choice = .insideTags → b.isInside = true
    · obtain ⟨log, (r : Except Failure String), hvisit, hdoes, hmade⟩ := h b (List.mem_cons_self ..) hb
      cases r with
      | error failure =>
        refine ⟨log, .error failure, .stop hb hvisit, ?_, hmade⟩
        rw [Work.render, renderBlocks_cons hb]
        exact hdoes.bind_error _
      | ok text =>
        refine ⟨log ++ log', r'.map (text ++ ·), .cons hb hvisit hrest, ?_, List.forall_mem_append.2 ⟨hmade, hmade'⟩⟩
        rw [Work.render, renderBlocks_cons hb, calls_append]
        exact hdoes.append hdoes'
    · have hskip : choice = .insideTags ∧ b.isInside = false := by simpa using hb
      refine ⟨log', r', .skip hskip hrest, ?_, hmade'⟩
      rw [Work.render, renderBlocks, if_pos (by simpa using hskip)]
      exact hdoes'

/-- What is left of a script runs, if what it asks for is answered. -/
theorem goes_script {v : Visit} {cs : List Block} {script : Script}
    (h : ∀ q, script.Asks (env.services v.depth) (env.childrenOf v.depth v.template cs) q →
      env.Goes t₀ s₀ (.request v cs q)) : env.Goes t₀ s₀ (.script v cs script) := by
  induction script with
  | done text => exact ⟨[], .ok text, .done, .pure text, List.forall_mem_nil _⟩
  | fail failure => exact ⟨_, _, .fail, .throw failure, madeWithin_failureOf (.error failure : Except Failure String)⟩
  | ask q next ih =>
    obtain ⟨log, r, hq, hdoes, hmade⟩ := h q .now
    cases r with
    | error failure => exact ⟨log, .error failure, .unanswered hq, hdoes.bind_error _, hmade⟩
    | ok a =>
      obtain ⟨log', r', hnext, hdoes', hmade'⟩ := ih a fun q' hq' => h q' (.later (hdoes.resultAfter []) hq')
      refine ⟨log ++ log', r', .ask hq hnext, ?_, List.forall_mem_append.2 ⟨hmade, hmade'⟩⟩
      rw [calls_append]
      exact hdoes.bind hdoes'

theorem does_load (env : Environment) (id : String) (base : Option String) :
    (env.load id base).Does (env.readLoaded id (env.loader.load id base)) [⟨id, base⟩] :=
  fun _ => rfl

theorem doesOutput (S : Services) (name source : String) (line : Nat) (s : Scope) :
    (outputText S name source line s).Does ((outputText S name source line s).resultAfter []) [] :=
  .ofResult _

variable (hreg : env.registry.Reachable) (hb : env.registry.OnlyBuiltin) (ht : env.Reads t₀)

include hreg hb ht

/-- A block that a render comes to is rendered as work. By induction on the includes that may be open, and on the block. -/
theorem Visits.goes {depth : Nat} {t : Template} {b : Block} {s : Scope} {selector : Selector}
    (h : env.Visits t₀ s₀ ⟨depth, t, b, s, selector⟩) : env.Goes t₀ s₀ (.visit ⟨depth, t, b, s, selector⟩) := by
  match b with
  | .text text =>
    refine ⟨[], .ok text, .text, ?_, List.forall_mem_nil _⟩
    rw [Work.render, renderBlock]
    exact .pure text
  | .bare => exact absurd rfl (h.ne_bare ht)
  | .output source line =>
    refine ⟨_, _, .output rfl, ?_, madeWithin_failureOf _⟩
    rw [Work.render, renderBlock, calls_failureOf]
    exact doesOutput _ _ _ _ _
  | .tag p tag cs =>
    obtain ⟨f, hf⟩ := exists_script (mem_builtinTags_of_visits hreg hb ht h rfl)
    have hscript : env.Goes t₀ s₀ (.script ⟨depth, t, .tag p tag cs, s, selector⟩ cs (f tag s selector)) := by
      refine goes_script fun q hq => ?_
      have hask : env.AsksFor ⟨depth, t, .tag p tag cs, s, selector⟩ q := .mk (.builtin hf) hq
      cases q with
      | value e s' =>
        refine ⟨_, _, .value, ?_, madeWithin_failureOf _⟩
        rw [calls_failureOf]
        show (Render.ofResult ((env.services depth).evaluate e s')).Does _ _
        rw [evaluate_services]
        exact .ofResult _
      | children s' selector' choice =>
        obtain ⟨log, r, hrow, hdoes, hmade⟩ : env.Goes t₀ s₀ (.row depth t choice cs s' selector') :=
          goes_row fun b' hb' hc => Visits.goes (h.next (.child hask hb' hc))
        exact ⟨log, r, .children hrow, hdoes, hmade⟩
      | template id s' base =>
        match depth with
        | 0 => exact ⟨_, _, .tooDeep, .throw _, madeWithin_failureOf (.error tooDeep : Except Failure String)⟩
        | depth + 1 =>
          have hcall : (Event.call ⟨depth + 1, t, .tag p tag cs, s, selector⟩ id base).MadeWithin env t₀ s₀ :=
            ⟨h, s', hask⟩
          have hload := env.does_load id (some base)
          have hrender : Work.render env (.request ⟨depth + 1, t, .tag p tag cs, s, selector⟩ cs (.template id s' base)) =
              (env.load id (some base) >>= fun t' =>
                renderBlocks (env.services depth) t'.name .all t'.blocks (s'.child []) .absent) := by
            rw [Work.render, Request.answer, services]
          cases hl : env.readLoaded id (env.loader.load id (some base)) with
          | error failure =>
            rw [hl] at hload
            exact ⟨_, _, .unloaded hl, hrender ▸ hload.bind_error _, by simpa using ⟨hcall, trivial⟩⟩
          | ok t' =>
            rw [hl] at hload
            obtain ⟨log, r, hrow, hdoes, hmade⟩ : env.Goes t₀ s₀ (.row depth t' .all t'.blocks (s'.child []) .absent) :=
              goes_row fun b' hb' _ => Visits.goes (h.next (.included hask hl hb'))
            exact ⟨_, r, .included hl hrow, hrender ▸ hload.bind hdoes, List.forall_mem_cons.2 ⟨hcall, hmade⟩⟩
    obtain ⟨log, r, hrun, hdoes, hmade⟩ := hscript
    refine ⟨log, _, .tag hf hrun, ?_, hmade⟩
    rw [Work.render, renderBlock_script (.builtin hf)]
    exact hdoes.describeTag _ _
  termination_by (depth, sizeOf b)
  decreasing_by
    · have := List.sizeOf_lt_of_mem hb'
      refine Prod.Lex.right _ ?_
      simp only [Block.tag.sizeOf_spec]
      omega
    · exact Prod.Lex.left _ _ (by omega)

end

/-! ## The last event -/

/-- A failure is the last event of work that fails, and no event of work that does not. -/
def Ends {α : Type} (log : List Event) : Except Failure α → Prop
  | .ok _ => ∀ failure, .failed failure ∉ log
  | .error _ => ∃ before failure, log = before ++ [.failed failure] ∧ ∀ failure, .failed failure ∉ before

section

variable {α β : Type} {log log' : List Event} {r : Except Failure α}

theorem ends_failureOf (r : Except Failure α) : Ends (failureOf r) r := by
  cases r with
  | ok a => exact fun failure h => nomatch h
  | error failure => exact ⟨[], failure, rfl, fun _ h => nomatch h⟩

theorem Ends.append (h : ∀ failure, .failed failure ∉ log) (h' : Ends log' r) : Ends (log ++ log') r := by
  cases r with
  | ok a => exact fun failure hmem => (List.mem_append.1 hmem).elim (h failure) (h' failure)
  | error e =>
    obtain ⟨before, failure, rfl, hbefore⟩ := h'
    refine ⟨log ++ before, failure, (List.append_assoc ..).symm, fun failure hmem => ?_⟩
    exact (List.mem_append.1 hmem).elim (h failure) (hbefore failure)

theorem Ends.call (h : Ends log r) (v : Visit) (id base : String) : Ends (.call v id base :: log) r :=
  append (by simp : ∀ failure, .failed failure ∉ [Event.call v id base]) h

theorem Ends.map (h : Ends log r) (f : α → β) : Ends log (r.map f) := by
  cases r <;> exact h

theorem Ends.mapError (h : Ends log r) (f : Failure → Failure) : Ends log (r.mapError f) := by
  cases r <;> exact h

/-- Nothing happens after a failure: work that fails ends with one. -/
theorem Executes.ends {env : Environment} {w : Work} {r : Except Failure w.Result} (h : env.Executes w log r) :
    Ends log r := by
  induction h with
  | text => exact ends_failureOf (.ok _)
  | output h => exact ends_failureOf _
  | tag hf h ih => exact ih.mapError _
  | done => exact ends_failureOf (.ok _)
  | fail => exact ends_failureOf (.error _)
  | ask h h' ih ih' => exact .append ih ih'
  | unanswered h ih => exact ih
  | value => exact ends_failureOf _
  | children h ih => exact ih
  | tooDeep => exact ends_failureOf (.error _)
  | unloaded hl => exact (ends_failureOf (.error _)).call _ _ _
  | included hl h ih => exact ih.call _ _ _
  | nil => exact ends_failureOf (.ok _)
  | skip hb h ih => exact ih
  | cons hb h h' ih ih' => exact .append ih (ih'.map _)
  | stop hb h ih => exact ih

end

/-! ## The templates of the includes -/

/-- The include that makes a call stands in the template in which the work is done, or in one that an earlier call has
given, and the name of which is the id of that call. -/
def Traced (env : Environment) (t : Template) (log : List Event) : Prop :=
  ∀ before v id base after, log = before ++ .call v id base :: after → v.template = t ∨
    ∃ u id' base', .call u id' base' ∈ before ∧ env.readLoaded id' (env.loader.load id' (some base')) = .ok v.template ∧
      v.template.name = id'

section

variable {env : Environment} {t t' : Template} {log log' : List Event}

theorem traced_failureOf {α : Type} (r : Except Failure α) : env.Traced t (failureOf r) := by
  intro before v id base after h
  have hmem : .call v id base ∈ failureOf r := h ▸ List.mem_append_right _ (List.mem_cons_self ..)
  cases r with
  | ok a => cases hmem
  | error failure => cases List.mem_singleton.1 hmem

theorem traced_call (v : Visit) (id base : String) : env.Traced v.template [.call v id base] := by
  intro before u id' base' after h
  cases before with
  | nil =>
    cases h
    exact .inl rfl
  | cons e before => simp at h

theorem Traced.append (h : env.Traced t log) (h' : env.Traced t log') : env.Traced t (log ++ log') := by
  intro before v id base after heq
  rcases List.append_eq_append_iff.1 heq with ⟨front, rfl, hlog'⟩ | ⟨rest, rfl, hrest⟩
  · rcases h' front v id base after hlog' with ht | ⟨u, id', base', hu, hload⟩
    · exact .inl ht
    · exact .inr ⟨u, id', base', List.mem_append_right _ hu, hload⟩
  · cases rest with
    | nil =>
      rcases h' [] v id base after hrest.symm with ht | ⟨u, id', base', hu, -⟩
      · exact .inl ht
      · cases hu
    | cons e rest =>
      cases hrest
      exact h before v id base rest rfl

theorem name_of_parse {source name : String} (h : env.parse source name = .ok t) : t.name = name :=
  (read_eq_ok.1 (mapError_eq_ok.1 h)).1

theorem name_of_readLoaded {id : String} {r : Except Failure Value} (h : env.readLoaded id r = .ok t) : t.name = id := by
  obtain ⟨text, -, hparse⟩ := readLoaded_eq_ok.1 h
  exact name_of_parse hparse

/-- What happens in an included template is traced back to the call that has given it. -/
theorem Traced.included {v : Visit} {id base : String} (h : env.Traced t' log) (hv : v.template = t)
    (hl : env.readLoaded id (env.loader.load id (some base)) = .ok t') : env.Traced t (.call v id base :: log) := by
  have hname := name_of_readLoaded hl
  intro before u id' base' after heq
  cases before with
  | nil =>
    cases heq
    exact .inl hv
  | cons e before =>
    cases heq
    rcases h before u id' base' after rfl with ht | ⟨w, id'', base'', hw, hload⟩
    · exact .inr ⟨v, id, base, List.mem_cons_self .., ht ▸ hl, ht ▸ hname⟩
    · exact .inr ⟨w, id'', base'', List.mem_cons_of_mem _ hw, hload⟩

theorem Executes.traced {w : Work} {r : Except Failure w.Result} (h : env.Executes w log r) :
    env.Traced w.template log := by
  induction h with
  | text => exact traced_failureOf (.ok ())
  | output h => exact traced_failureOf _
  | tag hf h ih => exact ih
  | done => exact traced_failureOf (.ok ())
  | fail => exact traced_failureOf (.error _ : Except Failure Unit)
  | ask h h' ih ih' => exact ih.append ih'
  | unanswered h ih => exact ih
  | value => exact traced_failureOf _
  | children h ih => exact ih
  | tooDeep => exact traced_failureOf (.error _ : Except Failure Unit)
  | unloaded hl => exact (traced_call _ _ _).append (traced_failureOf (.error _ : Except Failure Unit))
  | included hl h ih => exact ih.included rfl hl
  | nil => exact traced_failureOf (.ok ())
  | skip hb h ih => exact ih
  | cons hb h h' ih ih' => exact ih.append ih'
  | stop hb h ih => exact ih

end

/-! ## The calls of a render -/

/-- Where the calls in the render of a template come from. -/
structure Provenance (env : Environment) (t : Template) (s : Scope) (log : List Event) (r : Except Failure String) :
    Prop where
  /-- They are made as the render goes through the document. -/
  executes : env.Executes (.row env.includeDepth t .all t.blocks s .absent) log r
  /-- Each of them is made by an include, in the name of its template. -/
  made : ∀ v id base, .call v id base ∈ log → env.ExecutedInclude t s v id ∧ base = v.template.name
  /-- That template is the one that is rendered, or one that an earlier call has given. -/
  traced : env.Traced t log
  /-- No call comes after a failure. -/
  ends : Ends log r
  /-- The way to an include goes through the branches that are taken. -/
  selects : ∀ u w, env.Visits t s u → env.Next u w → env.Selects u w

section

variable {env : Environment} (hreg : env.registry.Reachable) (hb : env.registry.OnlyBuiltin) {t : Template} {s : Scope}
  (ht : env.Reads t)

include hreg hb ht

/-- The render of a template makes the calls that come from it. -/
theorem exists_provenance (s : Scope) :
    ∃ log r, (env.renderTemplate t s).Does r (calls log) ∧ env.Provenance t s log r := by
  obtain ⟨log, r, hrow, hdoes, hmade⟩ : env.Goes t s (.row env.includeDepth t .all t.blocks s .absent) :=
    goes_row fun b hmem _ => Visits.goes hreg hb ht (.root hmem)
  refine ⟨log, r, hdoes, hrow, fun v id base hcall => ?_, hrow.traced, hrow.ends,
    fun u w => selects_of_next hreg hb ht⟩
  obtain ⟨hv, s', hask⟩ := hmade _ hcall
  exact executedInclude_of_asks hreg hb ht hv hask

/-- The render of a template in a context, which may be no scope. -/
theorem render_in_context (context : Value) :
    (∃ failure, liftFault (env.makeScope context) = .error failure ∧
      (Render.ofResult (liftFault (env.makeScope context)) >>= env.renderTemplate t).Does (.error failure) []) ∨
    ∃ s log r, env.makeScope context = .ok s ∧
      (Render.ofResult (liftFault (env.makeScope context)) >>= env.renderTemplate t).Does r (calls log) ∧
      env.Provenance t s log r := by
  cases hs : env.makeScope context with
  | error f => exact .inl ⟨.fault f, rfl, (Render.Does.throw _).bind_error _⟩
  | ok s =>
    obtain ⟨log, r, hdoes, hprovenance⟩ := exists_provenance hreg hb ht s
    exact .inr ⟨s, log, r, rfl, (Render.Does.pure s).bind hdoes, hprovenance⟩

end

/-- With the built-in tags the render of a text makes no call of its own, and the render of an id starts with the call for
that id without a base; if the text cannot be read or the context is wrong, there is no further one. Any other call is
made by an include, in the order of the document, in the name of the template in which it stands, be it that text or the
template that an earlier call has given; and none comes after the first failure. -/
theorem calls_of_render (env : Environment) (hreg : env.registry.Reachable) (hb : env.registry.OnlyBuiltin)
    (context : Value) :
    (∀ source name, (∃ failure, (env.parse source name = .error failure ∨ liftFault (env.makeScope context) = .error failure) ∧
        (env.renderString source context name).run' = (.error failure, [])) ∨
      ∃ t s log r, env.parse source name = .ok t ∧ t.name = name ∧ env.makeScope context = .ok s ∧
        (env.renderString source context name).run' = (r, calls log) ∧ env.Provenance t s log r) ∧
    (∀ id, (∃ failure, (env.readLoaded id (env.loader.load id none) = .error failure ∨
          liftFault (env.makeScope context) = .error failure) ∧
        (env.render id context).run' = (.error failure, [⟨id, none⟩])) ∨
      ∃ t s log r, env.readLoaded id (env.loader.load id none) = .ok t ∧ t.name = id ∧ env.makeScope context = .ok s ∧
        (env.render id context).run' = (r, ⟨id, none⟩ :: calls log) ∧ env.Provenance t s log r) := by
  constructor
  · intro source name
    cases hparse : env.parse source name with
    | error failure =>
      have hdoes : (env.renderString source context name).Does (.error failure) [] := by
        rw [renderString, hparse]
        exact (Render.Does.throw failure).bind_error _
      exact .inl ⟨failure, .inl rfl, hdoes.run'⟩
    | ok t =>
      have hrun : env.renderString source context name =
          Render.ofResult (liftFault (env.makeScope context)) >>= env.renderTemplate t := by
        rw [renderString, hparse]
        rfl
      rw [hrun]
      rcases render_in_context hreg hb (reads_of_parse hparse) context with
        ⟨failure, hs, hdoes⟩ | ⟨s, log, r, hs, hdoes, hprovenance⟩
      · exact .inl ⟨failure, .inr hs, hdoes.run'⟩
      · exact .inr ⟨t, s, log, r, rfl, name_of_parse hparse, hs, hdoes.run', hprovenance⟩
  · intro id
    have hload := env.does_load id none
    cases hl : env.readLoaded id (env.loader.load id none) with
    | error failure =>
      rw [hl] at hload
      exact .inl ⟨failure, .inl rfl, (hload.bind_error _).run'⟩
    | ok t =>
      rw [hl] at hload
      rcases render_in_context hreg hb (reads_of_readLoaded hl) context with
        ⟨failure, hs, hdoes⟩ | ⟨s, log, r, hs, hdoes, hprovenance⟩
      · exact .inl ⟨failure, .inr hs, (hload.bind hdoes).run'⟩
      · exact .inr ⟨t, s, log, r, rfl, name_of_readLoaded hl, hs, (hload.bind hdoes).run', hprovenance⟩

/-- The template `page`, `{% include 'part' %}{% if x %}{% include 'other' %}{% endif %}`, and `part`, `{% include 'leaf' %}`,
where `leaf` is missing. -/
def chainedTexts : List (String × String) :=
  [("page", "\x7b% include 'part' %\x7d\x7b% if x %\x7d\x7b% include 'other' %\x7d\x7b% endif %\x7d"),
    ("part", "\x7b% include 'leaf' %\x7d")]

/-- The include in `part` fails, so that the one behind it calls nothing. -/
theorem calls_of_render_chained :
    ((ofTexts chainedTexts).render "page" (.dict [(.str "x", .int 1)])).run'.2 =
        [⟨"page", none⟩, ⟨"part", some "page"⟩, ⟨"leaf", some "part"⟩] ∧
      ∃ t s log r, calls log = [⟨"part", some "page"⟩, ⟨"leaf", some "part"⟩] ∧
        (ofTexts chainedTexts).Provenance t s log r := by
  have hcalls : ((ofTexts chainedTexts).render "page" (.dict [(.str "x", .int 1)])).run'.2 =
      [⟨"page", none⟩, ⟨"part", some "page"⟩, ⟨"leaf", some "part"⟩] := by
    decide +kernel
  rcases (calls_of_render (ofTexts chainedTexts) reachable_builtinRegistry onlyBuiltin_builtinRegistry
      (.dict [(.str "x", .int 1)])).2 "page" with ⟨failure, -, h⟩ | ⟨t, s, log, r, -, -, -, h, hprovenance⟩
  · rw [h] at hcalls
    cases hcalls
  · refine ⟨hcalls, t, s, log, r, ?_, hprovenance⟩
    rw [h] at hcalls
    exact (List.cons.inj hcalls).2

end Environment

end TemplateEngine

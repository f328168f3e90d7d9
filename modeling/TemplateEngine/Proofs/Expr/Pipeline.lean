/-
Pipelines. A value passes through stages, each of which is a filter with further arguments. The stages nest the other way
round: the last filter is the outermost one, and is looked up first. So a pipeline with an unknown filter fails before
anything of it is evaluated, and one without runs its stages in the order in which they are written.
-/
import TemplateEngine.Callable.Builtin
import TemplateEngine.Proofs.Expr.Faults
import TemplateEngine.Proofs.Expr.Mentioned
import TemplateEngine.Proofs.Expr.Reading

namespace TemplateEngine

/-! ## Stages -/

/-- A stage of a pipeline: a filter and its further arguments. -/
structure Stage where
  filter : String
  args : List Expr

namespace Expr

/-- The pipeline of a value and some stages, first one first. -/
def through (value : Expr) (stages : List Stage) : Expr :=
  stages.foldl (fun e stage => .filter e stage.filter stage.args) value

theorem through_cons (value : Expr) (stage : Stage) (stages : List Stage) :
    value.through (stage :: stages) = (Expr.filter value stage.filter stage.args).through stages := rfl

theorem through_append (value : Expr) (stages stages' : List Stage) :
    value.through (stages ++ stages') = (value.through stages).through stages' :=
  List.foldl_append

/-- The last stage is the outermost one. -/
theorem through_concat (value : Expr) (stages : List Stage) (stage : Stage) :
    value.through (stages ++ [stage]) = .filter (value.through stages) stage.filter stage.args :=
  through_append value stages [stage]

/-- The stages that a name passes through can be told from the pipeline. -/
theorem through_name_injective {n : String} {stages stages' : List Stage}
    (h : (name n).through stages = (name n).through stages') : stages = stages' := by
  induction stages using List.reverseRecOn generalizing stages' with
  | nil =>
    rcases stages'.eq_nil_or_concat' with rfl | ⟨front, last, rfl⟩
    · rfl
    · rw [through_concat] at h
      cases h
  | append_singleton stages stage ih =>
    obtain ⟨filter, args⟩ := stage
    rw [through_concat] at h
    rcases stages'.eq_nil_or_concat' with rfl | ⟨front, ⟨filter', args'⟩, rfl⟩
    · cases h
    · rw [through_concat] at h
      obtain ⟨hvalue, rfl, rfl⟩ := Expr.filter.inj h
      rw [ih hvalue]

end Expr

/-- An argument of some stages mentions a name. -/
def Stage.Mention (n : String) (stages : List Stage) : Prop :=
  ∃ stage ∈ stages, n ∈ Expr.namesAll stage.args

/-- The filters that are read after a value are stages that it passes through. Only where there are no tokens there are no
stages, and the names that the stages mention are among the tokens. -/
theorem ExprGrammar.Stages.exists_through {d : Dialect} : ∀ {before after : Bool} {value e : Expr} {us : List ExprToken},
    Stages d before value us after e → ∃ stages, e = value.through stages ∧ (stages = [] → us = []) ∧
      ∀ n, Stage.Mention n stages → Named n us
  | _, _, _, _, _, .nil => ⟨[], rfl, fun _ => rfl, fun _ ⟨_, h, _⟩ => nomatch h⟩
  | _, _, _, _, _, .plain _ _ hs => by
    obtain ⟨stages, rfl, -, hnames⟩ := hs.exists_through
    refine ⟨⟨_, []⟩ :: stages, rfl, nofun, ?_⟩
    rintro n ⟨stage, hstage, hn⟩
    rcases List.mem_cons.1 hstage with rfl | hstage
    · cases hn
    · exact .cons (.cons (hnames n ⟨stage, hstage, hn⟩))
  | _, _, _, _, _, .withArgs _ _ _ h hs => by
    obtain ⟨stages, rfl, -, hnames⟩ := hs.exists_through
    refine ⟨⟨_, _⟩ :: stages, rfl, nofun, ?_⟩
    rintro n ⟨stage, hstage, hn⟩
    rcases List.mem_cons.1 hstage with rfl | hstage
    · exact .cons (.cons (.cons (.left (h.named hn))))
    · exact .cons (.cons (.cons (.right (hnames n ⟨stage, hstage, hn⟩))))

/-- Stages follow any value as they follow another one. -/
theorem ExprGrammar.Stages.rebase_through {d : Dialect} (before' : Bool) (value' : Expr) :
    ∀ {before after : Bool} {value e : Expr} {us : List ExprToken}, Stages d before value us after e →
      ∃ stages after', e = value.through stages ∧ Stages d before' value' us after' (value'.through stages)
  | _, _, _, _, _, .nil => ⟨[], _, rfl, .nil⟩
  | _, _, _, _, _, .plain ht hu hs => by
    obtain ⟨stages, after', rfl, h⟩ := hs.rebase_through false (.filter value' _ [])
    exact ⟨⟨_, []⟩ :: stages, after', rfl, .plain ht hu h⟩
  | _, _, _, _, _, .withArgs ht hu hc h hs => by
    obtain ⟨stages, after', rfl, hs⟩ := hs.rebase_through true (.filter value' _ _)
    exact ⟨⟨_, _⟩ :: stages, after', rfl, .withArgs ht hu hc h hs⟩

namespace Evaluator

variable {ev : Evaluator} {s : Scope} {value : Expr} {stages : List Stage}

/-- What a stage makes of a value. -/
def pass (ev : Evaluator) (s : Scope) (v : Value) (stage : Stage) : Except Failure Value :=
  match s.filter? stage.filter with
  | none => .error (.evaluation (.unknownFilter stage.filter))
  | some f => do
    let vs ← ev.evalAll (s.holding v) stage.args
    s.settle <$> describe (.filterCall stage.filter) (f.apply ev.host (v :: vs))

/-! ## Known filters -/

theorem eval_stage {stage : Stage} (h : (s.filter? stage.filter).isSome) :
    ev.eval s (.filter value stage.filter stage.args) = ev.eval s value >>= fun v => ev.pass s v stage := by
  obtain ⟨f, hf⟩ := Option.isSome_iff_exists.1 h
  simp only [eval, pass, hf]

/-- A pipeline of known filters evaluates its value, and hands the result from stage to stage. -/
theorem eval_through (h : ∀ stage ∈ stages, (s.filter? stage.filter).isSome) :
    ev.eval s (value.through stages) = ev.eval s value >>= fun v => stages.foldlM (ev.pass s) v := by
  induction stages generalizing value with
  | nil => exact (bind_pure _).symm
  | cons stage stages ih =>
    obtain ⟨hstage, hstages⟩ := List.forall_mem_cons.1 h
    rw [Expr.through_cons, ih hstages, eval_stage hstage, bind_assoc]
    rfl

/-! ## Unknown filters -/

section

variable {stage : Stage} {after : List Stage}

theorem eval_unknown (h : s.filter? stage.filter = none) :
    ev.eval s (.filter value stage.filter stage.args) = .error (.evaluation (.unknownFilter stage.filter)) := by
  simp only [eval, h]

/-- The last unknown filter is the first one that is looked up without success. -/
theorem eval_through_unknown (before : List Stage) (hstage : s.filter? stage.filter = none)
    (hafter : ∀ t ∈ after, (s.filter? t.filter).isSome) :
    ev.eval s (value.through (before ++ stage :: after)) = .error (.evaluation (.unknownFilter stage.filter)) := by
  rw [Expr.through_append, Expr.through_cons, eval_through hafter, eval_unknown hstage]
  rfl

/-- Down to the last unknown filter only lookups take place. By induction on the stages after it, last one first. -/
theorem reaches_through_unknown {before : List Stage} (hstage : s.filter? stage.filter = none)
    (hafter : ∀ t ∈ after, (s.filter? t.filter).isSome) {s' : Scope} {e' : Expr}
    (h : ev.Reaches s (value.through (before ++ stage :: after)) s' e') :
    s' = s ∧ ∃ between, between <+: after ∧ e' = value.through (before ++ stage :: between) := by
  induction after using List.reverseRecOn with
  | nil =>
    rw [Expr.through_concat] at h
    cases h with
    | self => exact ⟨rfl, [], List.prefix_rfl, (Expr.through_concat ..).symm⟩
    | part hp _ => cases hp <;> simp_all
  | append_singleton after last ih =>
    have hafter' : ∀ t ∈ after, (s.filter? t.filter).isSome := fun t ht => hafter t (List.mem_append_left _ ht)
    have hnested : value.through (before ++ stage :: (after ++ [last])) =
        .filter (value.through (before ++ stage :: after)) last.filter last.args := by
      rw [← List.cons_append, ← List.append_assoc, Expr.through_concat]
    rw [hnested] at h
    cases h with
    | self => exact ⟨rfl, _, List.prefix_rfl, hnested.symm⟩
    | part hp h =>
      cases hp with
      | filtered =>
        obtain ⟨hs, between, hprefix, he⟩ := ih hafter' h
        exact ⟨hs, between, hprefix.trans (List.prefix_append _ _), he⟩
      | filterArg _ hv =>
        -- arguments are entered after the value, which there is not
        rw [eval_through_unknown before hstage hafter'] at hv
        cases hv

end

/-! ## Values -/

theorem isSome_of_eval_through {v : Value} (h : ev.eval s (value.through stages) = .ok v) :
    ∀ stage ∈ stages, (s.filter? stage.filter).isSome := by
  induction stages generalizing value with
  | nil => exact List.forall_mem_nil _
  | cons stage stages ih =>
    rw [Expr.through_cons] at h
    refine List.forall_mem_cons.2 ⟨?_, ih h⟩
    rw [eval_through (ih h)] at h
    obtain ⟨u, hu, -⟩ := bind_eq_ok.1 h
    refine Option.isSome_iff_ne_none.2 fun hnone => ?_
    rw [eval_unknown hnone] at hu
    cases hu

/-- Only a pipeline of known filters has a value. -/
theorem eval_through_eq_ok {v : Value} : ev.eval s (value.through stages) = .ok v ↔
    (∀ stage ∈ stages, (s.filter? stage.filter).isSome) ∧
      ∃ u, ev.eval s value = .ok u ∧ stages.foldlM (ev.pass s) u = .ok v := by
  constructor
  · intro h
    have hknown := isSome_of_eval_through h
    rw [eval_through hknown] at h
    exact ⟨hknown, bind_eq_ok.1 h⟩
  · rintro ⟨hknown, h⟩
    rw [eval_through hknown]
    exact bind_eq_ok.2 h

/-- What a stage makes of a value depends on the names that it mentions alone. -/
theorem pass_agreeOn {s' : Scope} {stage : Stage} (h : s.AgreeOn (Expr.namesAll stage.args) s') (v : Value) :
    ev.pass s' v stage = ev.pass s v stage := by
  unfold pass
  rw [h.filter?]
  cases s.filter? stage.filter with
  | none => rfl
  | some f =>
    dsimp only
    rw [evalAll_agreeOn ev stage.args (h.holding v), h.settle]

theorem foldlM_pass_agreeOn {s' : Scope} (h : ∀ stage ∈ stages, s.AgreeOn (Expr.namesAll stage.args) s') (v : Value) :
    stages.foldlM (ev.pass s') v = stages.foldlM (ev.pass s) v := by
  induction stages generalizing v with
  | nil => rfl
  | cons stage stages ih =>
    obtain ⟨hstage, hstages⟩ := List.forall_mem_cons.1 h
    rw [List.foldlM_cons, List.foldlM_cons, pass_agreeOn hstage]
    exact bind_congr (ih hstages)

/-- A pipeline with an unknown filter fails with the last one of them, whatever its value and the arguments are: only the
pipelines that end with this filter or one after it are ever entered, and none of the values and arguments is. Where all
filters are known, the value is evaluated, and from left to right each stage evaluates its arguments and calls its filter
with the result of the stage before it and them; the first failure is the result. -/
theorem eval_pipeline (ev : Evaluator) (s : Scope) (value : Expr) (stages : List Stage) :
    (∀ before stage after, stages = before ++ stage :: after → s.filter? stage.filter = none →
      (∀ t ∈ after, (s.filter? t.filter).isSome) →
      ev.eval s (value.through stages) = .error (.evaluation (.unknownFilter stage.filter)) ∧
        (EvalError.unknownFilter stage.filter).message = "Unknown filter '" ++ stage.filter ++ "'" ∧
        ∀ s' e', ev.Reaches s (value.through stages) s' e' →
          s' = s ∧ ∃ between, between <+: after ∧ e' = value.through (before ++ stage :: between)) ∧
    ((∀ stage ∈ stages, (s.filter? stage.filter).isSome) →
      ev.eval s (value.through stages) = do
        let v ← ev.eval s value
        stages.foldlM (ev.pass s) v) := by
  refine ⟨?_, eval_through⟩
  rintro before stage after rfl hstage hafter
  exact ⟨eval_through_unknown before hstage hafter, rfl, fun s' e' h => reaches_through_unknown hstage hafter h⟩

/-- An unknown filter between two known ones, where neither the value nor an argument has a value; and two known filters,
the second of which has an argument without a value. -/
theorem eval_pipeline_unknown : ∃ (s : Scope) (unknown known : List Stage),
    Expr.read "a | trim: b | nope | upper: c" = .ok ((Expr.name "a").through unknown) ∧
    (∀ policy, (⟨Host.empty, policy⟩ : Evaluator).eval s ((Expr.name "a").through unknown) =
      .error (.evaluation (.unknownFilter "nope"))) ∧
    Expr.read "1 | string | default: b" = .ok ((Expr.literal (.int 1)).through known) ∧
    (⟨Host.empty, .strict⟩ : Evaluator).eval s ((Expr.literal (.int 1)).through known) =
      .error (.evaluation (.undefinedName "b")) := by
  let s : Scope := { bindings := [(Scope.filtersName, builtinFilters.toValue)] }
  have hknown : ∀ n ∈ ["trim", "upper", "string", "default"], (s.filter? n).isSome := by decide +kernel
  refine ⟨s, [⟨"trim", [.name "b"]⟩, ⟨"nope", []⟩, ⟨"upper", [.name "c"]⟩], [⟨"string", []⟩, ⟨"default", [.name "b"]⟩],
    by with_unfolding_all rfl, fun policy => ?_, by with_unfolding_all rfl, ?_⟩
  · refine ((eval_pipeline ⟨Host.empty, policy⟩ s (.name "a") _).1 [⟨"trim", [.name "b"]⟩] ⟨"nope", []⟩ _ rfl
      (by decide +kernel) ?_).1
    simpa using hknown "upper" (by simp)
  · rw [(eval_pipeline ⟨Host.empty, .strict⟩ s (.literal (.int 1)) _).2 ?_]
    · with_unfolding_all rfl
    · simpa using ⟨hknown "string" (by simp), hknown "default" (by simp)⟩

end Evaluator

end TemplateEngine

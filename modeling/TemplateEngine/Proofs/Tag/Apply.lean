/-
The family `apply`. Whatever its signature is, the text of the body passes through the stages of a chain of filters, and
there is at least one. Two nested tags of the family render as one whose chain is that of the inner tag, the conversion to
text, and the chain of the outer one.
-/
import TemplateEngine.Environment.Render
import TemplateEngine.Proofs.Expr.Piped
import TemplateEngine.Proofs.Template.Refine

namespace TemplateEngine.ApplyTag

open Text

/-! ## Signatures -/

section

variable {tag : String} {role : TagRole} {signature : String} {stages : List Stage}

theorem isPlainName_bodyName : isPlainName bodyName = true := by
  decide

/-- The arguments of a tag that sends the text of its body through some stages. -/
def chainArgs (stages : List Stage) : TagArgs :=
  .expr ((Expr.name bodyName).through stages)

/-- A pipeline through some stages is a filter. -/
theorem exists_filter (h : stages ≠ []) (value : Expr) :
    ∃ inner filter args, value.through stages = .filter inner filter args := by
  obtain ⟨front, last, rfl⟩ := stages.eq_nil_or_concat'.resolve_left h
  exact ⟨_, _, _, Expr.through_concat ..⟩

/-- A signature has chains as arguments, or it is blank or no expression behind the reserved name. -/
theorem readArgs_eq (tag : String) (role : TagRole) (signature : String) :
    readArgs tag role signature =
      if blank signature then .error (.required tag)
      else (Expr.read (bodyName ++ " | " ++ signature)).map .expr |>.mapError .expression := by
  unfold readArgs requireSignature readExpr
  split
  · rfl
  · cases hread : Expr.read (bodyName ++ " | " ++ signature) with
    | error failure => rw [ok_bind, hread]; rfl
    | ok e =>
      -- what is read behind the bar is a chain, and passes the check
      obtain ⟨stages, hne, rfl, -⟩ := exists_stages_of_piped isPlainName_bodyName hread
      obtain ⟨inner, filter, args, hfilter⟩ := exists_filter hne (.name bodyName)
      rw [ok_bind, hread, hfilter]
      rfl

theorem readArgs_eq_ok {args : TagArgs} : readArgs tag role signature = .ok args ↔
    blank signature = false ∧ ∃ e, Expr.read (bodyName ++ " | " ++ signature) = .ok e ∧ args = .expr e := by
  rw [readArgs_eq]
  cases hb : blank signature with
  | true => simp
  | false =>
    cases Expr.read (bodyName ++ " | " ++ signature) <;> simp [eq_comm, Except.map]

/-- Two chains with the conversion to text between them are a chain. -/
theorem readArgs_concat {tag' tag'' : String} {role' role'' : TagRole} {signature' : String} {stages' : List Stage}
    (h : readArgs tag role signature = .ok (chainArgs stages))
    (h' : readArgs tag' role' signature' = .ok (chainArgs stages')) :
    readArgs tag'' role'' (signature ++ " | string | " ++ signature') =
      .ok (chainArgs (stages ++ ⟨"string", []⟩ :: stages')) := by
  have hread {tag : String} {role : TagRole} {signature : String} {stages : List Stage}
      (h : readArgs tag role signature = .ok (chainArgs stages)) :
      Expr.read (bodyName ++ " | " ++ signature) = .ok ((Expr.name bodyName).through stages) := by
    obtain ⟨-, e, he, hargs⟩ := readArgs_eq_ok.1 h
    rw [he, TagArgs.expr.inj hargs]
  have hstring : Expr.read (bodyName ++ " | " ++ "string") = .ok ((Expr.name bodyName).through [⟨"string", []⟩]) := by
    with_unfolding_all rfl
  have hfront := read_piped_append isPlainName_bodyName (hread h) hstring
  have hall := read_piped_append isPlainName_bodyName hfront (hread h')
  have hsource : signature ++ " | string | " ++ signature' = signature ++ " | " ++ "string" ++ " | " ++ signature' := by
    simp only [String.append_assoc]
    rfl
  have hblank : blank (signature ++ " | string | " ++ signature') = false := by
    have hbar : " | string | ".toList.all isBlank = false := by decide
    simp only [blank, String.toList_append, List.all_append, hbar, Bool.and_false, Bool.false_and]
  rw [List.append_assoc, List.singleton_append, ← hsource] at hall
  exact readArgs_eq_ok.2 ⟨hblank, _, hall, rfl⟩

end

/-! ## Chains -/

section

variable {ev : Evaluator} {s : Scope} {stages stages' : List Stage} {text text' : String}

/-- The scope in which the chain of a tag is evaluated, given the text of its body. -/
def chainScope (s : Scope) (body : String) : Scope :=
  s.child [(bodyName, .str body)]

/-- The text that comes out of a chain. -/
def chainText (ev : Evaluator) (s : Scope) (stages : List Stage) (body : String) : Except Failure String := do
  let v ← ev.eval (chainScope s body) ((Expr.name bodyName).through stages)
  liftFault v.outputText

theorem filter?_chainScope (s : Scope) (body n : String) : (chainScope s body).filter? n = s.filter? n := by
  refine Scope.filter?_congr ?_ n
  rw [chainScope, Scope.resolve_child, Bindings.value?_cons, if_neg (by decide)]
  rfl

theorem agreeOn_chainScope {names : List String} (h : bodyName ∉ names) (s : Scope) (body body' : String) :
    (chainScope s body).AgreeOn names (chainScope s body') where
  resolve n hn := by
    have hne : bodyName ≠ n := by
      rintro rfl
      exact h hn
    rw [chainScope, chainScope, Scope.resolve_child, Scope.resolve_child, Bindings.value?_cons, Bindings.value?_cons,
      if_neg hne, if_neg hne]
  filters := rfl
  level := rfl
  inUse := rfl

/-- A chain hands the text of the body from stage to stage. -/
theorem chainText_eq_ok : chainText ev s stages text = .ok text' ↔
    (∀ stage ∈ stages, (s.filter? stage.filter).isSome) ∧
      ∃ v, stages.foldlM (ev.pass (chainScope s text)) (.str text) = .ok v ∧ v.outputText = .ok text' := by
  have hbody : ev.eval (chainScope s text) (.name bodyName) = .ok (.str text) := by
    rw [Evaluator.eval, Evaluator.nameValue, chainScope, Scope.resolve_child, Bindings.value?_cons_self]
    rfl
  unfold chainText
  rw [bind_eq_ok]
  simp only [Evaluator.eval_through_eq_ok, filter?_chainScope, hbody, liftFault, mapError_eq_ok, Except.ok.injEq,
    exists_eq_left']
  constructor
  · rintro ⟨v, ⟨hknown, hv⟩, ht⟩
    exact ⟨hknown, v, hv, ht⟩
  · rintro ⟨hknown, v, hv, ht⟩
    exact ⟨v, ⟨hknown, hv⟩, ht⟩

/-- The conversion to text gives the text of a value. -/
theorem pass_string_eq_ok (hstring : s.filter? "string" = some (.callable (.filter .string))) {v w : Value} :
    ev.pass s v ⟨"string", []⟩ = .ok w ↔ ∃ t, v.outputText = .ok t ∧ .str t = w := by
  have hpass : ev.pass s v ⟨"string", []⟩ = s.settle <$> Evaluator.describe (.filterCall "string")
      (liftFault (BuiltinFilter.ofOutput id v)) := by
    unfold Evaluator.pass
    rw [hstring]
    rfl
  rw [hpass, BuiltinFilter.ofOutput]
  cases v.outputText with
  | error f => exact iff_of_false nofun nofun
  | ok t =>
    show Except.ok (Value.str t) = .ok w ↔ _
    simp

/-- The conversion to text between two chains is what the text of a tag inside of another one goes through. -/
theorem chainText_concat (hstring : s.filter? "string" = some (.callable (.filter .string)))
    (hmention : ¬ Stage.Mention bodyName stages') :
    chainText ev s (stages ++ ⟨"string", []⟩ :: stages') text = .ok text' ↔
      ∃ between, chainText ev s stages text = .ok between ∧ chainText ev s stages' between = .ok text' := by
  -- the second chain does not see which text the reserved name is bound to
  have hagree (between : String) (v : Value) :
      stages'.foldlM (ev.pass (chainScope s between)) v = stages'.foldlM (ev.pass (chainScope s text)) v :=
    Evaluator.foldlM_pass_agreeOn (fun stage hstage => agreeOn_chainScope (fun hn => hmention ⟨stage, hstage, hn⟩) s _ _) v
  simp only [chainText_eq_ok, List.foldlM_append, List.foldlM_cons, bind_eq_ok, hagree,
    pass_string_eq_ok ((filter?_chainScope s text _).trans hstring), List.forall_mem_append, List.forall_mem_cons, hstring]
  constructor
  · rintro ⟨⟨hknown, -, hknown'⟩, v, ⟨w, hw, _, ⟨between, ht, rfl⟩, hv⟩, ht'⟩
    exact ⟨between, ⟨hknown, w, hw, ht⟩, hknown', v, hv, ht'⟩
  · rintro ⟨between, ⟨hknown, w, hw, ht⟩, hknown', v, hv, ht'⟩
    exact ⟨⟨hknown, rfl, hknown'⟩, v, ⟨w, hw, _, ⟨between, ht, rfl⟩, hv⟩, ht'⟩

end

/-! ## Renders -/

/-- A tag of the family as it has been read, and the stages of its chain. -/
structure Read (t : Tag) (stages : List Stage) : Prop where
  signature : readArgs t.name t.role t.signature = .ok t.args
  args : t.args = chainArgs stages

section

variable {env : Environment} {depth : Nat} {name : String} {s : Scope} {selector : Selector} {t : Tag} {cs : List Block}
  {stages : List Stage} {calls : List LoaderCall}

theorem renderBlock_eq (ha : t.args = chainArgs stages) :
    renderBlock (env.services depth) name (.tag plugin t cs) s selector = describeTag name t (do
      let body ← renderBlocks (env.services depth) name .all cs s .absent
      Render.ofResult (chainText ⟨env.host, env.undefined⟩ s stages body)) := by
  rw [renderBlock]
  simp only [plugin, render, Tag.evaluate, ha, chainArgs, bind_assoc, bind_map_left, Outcome.resolve, bind_pure,
    env.evaluate_services]
  congr 1
  refine bind_congr fun body => ?_
  unfold chainText Environment.evaluate
  rw [← chainScope]
  cases (⟨env.host, env.undefined⟩ : Evaluator).eval (chainScope s body) ((Expr.name bodyName).through stages) <;> rfl

theorem resultAfter_eq_ok (ha : t.args = chainArgs stages) {text : String} :
    (renderBlock (env.services depth) name (.tag plugin t cs) s selector).resultAfter calls = .ok text ↔
      ∃ body, (renderBlocks (env.services depth) name .all cs s .absent).resultAfter calls = .ok body ∧
        chainText ⟨env.host, env.undefined⟩ s stages body = .ok text := by
  rw [renderBlock_eq ha, resultAfter_describeTag_eq_ok, resultAfter_bind_eq_ok]
  rfl

/-- Only the body asks the loader for templates. -/
theorem requests_eq (ha : t.args = chainArgs stages) :
    ((ExceptT.run (renderBlock (env.services depth) name (.tag plugin t cs) s selector)).run calls).2 =
      ((ExceptT.run (renderBlocks (env.services depth) name .all cs s .absent)).run calls).2 := by
  rw [renderBlock_eq ha, run_describeTag, ExceptT.run_bind, StateT.run_bind]
  rcases (ExceptT.run (renderBlocks (env.services depth) name .all cs s .absent)).run calls with ⟨result, calls'⟩
  cases result <;> rfl

/-- A tag inside of another one, and the tag whose chain is that of both with the conversion to text between them. -/
theorem nested_eq_joined {outer inner both : Tag} {stages stages' : List Stage} {body : List Block}
    (ho : outer.args = chainArgs stages) (hi : inner.args = chainArgs stages')
    (hb : both.args = chainArgs (stages' ++ ⟨"string", []⟩ :: stages)) (hmention : ¬ Stage.Mention bodyName stages)
    (hstring : s.filter? "string" = some (.callable (.filter .string))) :
    let nested := renderBlock (env.services depth) name (.tag plugin outer [.tag plugin inner body]) s selector
    let joined := renderBlock (env.services depth) name (.tag plugin both body) s selector
    (nested.resultAfter calls).toOption = (joined.resultAfter calls).toOption ∧
      ((ExceptT.run nested).run calls).2 = ((ExceptT.run joined).run calls).2 := by
  have hrow : renderBlocks (env.services depth) name .all [.tag plugin inner body] s .absent =
      renderBlock (env.services depth) name (.tag plugin inner body) s .absent :=
    renderBlocks_singleton (.inl rfl)
  dsimp only
  constructor
  · refine Option.ext fun text => ?_
    rw [toOption_eq_some, toOption_eq_some, resultAfter_eq_ok ho, resultAfter_eq_ok hb, hrow]
    simp only [resultAfter_eq_ok hi, chainText_concat hstring hmention]
    constructor
    · rintro ⟨between, ⟨text', hbody, hbetween⟩, ht⟩
      exact ⟨text', hbody, between, hbetween, ht⟩
    · rintro ⟨text', hbody, between, hbetween, ht⟩
      exact ⟨between, ⟨text', hbody, hbetween⟩, ht⟩
  · rw [requests_eq ho, requests_eq hb, hrow, requests_eq hi]

end

/-- Whatever signature is accepted, the text of the body passes through a chain of at least one filter, which starts with
the reserved name; that it is no chain is never the problem. A tag inside of another one renders as one tag whose signature is
that of the inner one, the conversion to text, and that of the outer one, if the outer chain does not mention the reserved
name: both give the same text or both fail, after the same requests to the loader. -/
theorem chain_and_nested :
    (∀ tag role signature,
      (∀ tag' signature', readArgs tag role signature ≠ .error (.filterChain tag' signature')) ∧
      ∀ args, readArgs tag role signature = .ok args → ∃ stages, stages ≠ [] ∧ args = chainArgs stages ∧
        ∀ n, Stage.Mention n stages → n.toList <:+: signature.toList) ∧
    ∀ (outer inner both : Tag) (stages stages' : List Stage), Read outer stages → Read inner stages' →
      both.signature = inner.signature ++ " | string | " ++ outer.signature →
      readArgs both.name both.role both.signature = .ok (chainArgs (stages' ++ ⟨"string", []⟩ :: stages)) ∧
      (readArgs both.name both.role both.signature = .ok both.args →
        ¬ Stage.Mention bodyName stages →
        ∀ (env : Environment) (depth : Nat) (name : String) (body : List Block) (s : Scope) (selector : Selector)
          (calls : List LoaderCall), s.filter? "string" = some (.callable (.filter .string)) →
          let nested := renderBlock (env.services depth) name (.tag plugin outer [.tag plugin inner body]) s selector
          let joined := renderBlock (env.services depth) name (.tag plugin both body) s selector
          (nested.resultAfter calls).toOption = (joined.resultAfter calls).toOption ∧
            ((ExceptT.run nested).run calls).2 = ((ExceptT.run joined).run calls).2) := by
  refine ⟨fun tag role signature => ⟨fun tag' signature' h => ?_, fun args h => ?_⟩, ?_⟩
  · rw [readArgs_eq] at h
    split at h
    · cases h
    · cases hread : Expr.read (bodyName ++ " | " ++ signature) <;> rw [hread] at h <;> cases h
  · obtain ⟨-, e, he, rfl⟩ := readArgs_eq_ok.1 h
    obtain ⟨stages, hne, rfl, hnames⟩ := exists_stages_of_piped isPlainName_bodyName he
    exact ⟨stages, hne, rfl, hnames⟩
  · rintro outer inner both stages stages' houter hinner hboth
    have hargs : readArgs both.name both.role both.signature = .ok (chainArgs (stages' ++ ⟨"string", []⟩ :: stages)) := by
      rw [hboth]
      exact readArgs_concat (hinner.args ▸ hinner.signature) (houter.args ▸ houter.signature)
    refine ⟨hargs, fun hread hmention env depth name body s selector calls hstring => ?_⟩
    exact nested_eq_joined houter.args hinner.args (Except.ok.inj (hread.symm.trans hargs)) hmention hstring

/-- A tag that makes a list of an empty body inside of one that counts: what is counted are the characters of the text of
the list. -/
theorem chain_and_nested_list : ∃ (outer inner both : Tag) (stages stages' : List Stage) (env : Environment) (s : Scope),
    Read outer stages ∧ outer.signature = "length" ∧ Read inner stages' ∧ inner.signature = "default: [1, 2], true" ∧
    ¬ Stage.Mention bodyName stages ∧ both.signature = "default: [1, 2], true | string | length" ∧
    readArgs both.name both.role both.signature = .ok both.args ∧
    ((renderBlock (env.services 0) "t" (.tag plugin both []) s .absent).resultAfter []).toOption = some "6" ∧
    ((renderBlock (env.services 0) "t" (.tag plugin outer [.tag plugin inner []]) s .absent).resultAfter []).toOption =
      some "6" := by
  let stages : List Stage := [⟨"length", []⟩]
  let stages' : List Stage := [⟨"default", [.list [.literal (.int 1), .literal (.int 2)], .literal (.bool true)]⟩]
  let env : Environment := { loader := .ofTexts [] }
  let outer : Tag := ⟨"apply", .opening, "length", chainArgs stages, 1, "t"⟩
  let inner : Tag := ⟨"filter", .opening, "default: [1, 2], true", chainArgs stages', 1, "t"⟩
  let both : Tag := ⟨"apply", .opening, "default: [1, 2], true | string | length",
    chainArgs (stages' ++ ⟨"string", []⟩ :: stages), 1, "t"⟩
  have hlength : Expr.read (bodyName ++ " | " ++ "length") = .ok ((Expr.name bodyName).through stages) := by
    with_unfolding_all rfl
  have hdefault : Expr.read (bodyName ++ " | " ++ "default: [1, 2], true") =
      .ok ((Expr.name bodyName).through stages') := by
    with_unfolding_all rfl
  have houter : Read outer stages := ⟨readArgs_eq_ok.2 ⟨by decide, _, hlength, rfl⟩, rfl⟩
  have hinner : Read inner stages' := ⟨readArgs_eq_ok.2 ⟨by decide, _, hdefault, rfl⟩, rfl⟩
  have hmention : ¬ Stage.Mention bodyName stages := by
    rintro ⟨stage, hstage, hn⟩
    cases List.mem_singleton.1 hstage
    cases hn
  have hjoined : ((renderBlock (env.services 0) "t" (.tag plugin both []) env.globalScope .absent).resultAfter []).toOption =
      some "6" := by
    with_unfolding_all rfl
  obtain ⟨hread, hrender⟩ := chain_and_nested.2 outer inner both stages stages' houter hinner rfl
  obtain ⟨hnested, -⟩ := hrender hread hmention env 0 "t" [] env.globalScope .absent [] (by with_unfolding_all rfl)
  exact ⟨outer, inner, both, stages, stages', env, env.globalScope, houter, rfl, hinner, rfl, hmention, rfl, hread, hjoined,
    hnested.trans hjoined⟩

end TemplateEngine.ApplyTag

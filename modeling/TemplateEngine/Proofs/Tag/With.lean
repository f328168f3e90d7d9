/-
The family `with`. A tag that binds a name to the value of an expression renders an output as if the expression stood in the
place of the name, in the scope of the tag.
-/
import TemplateEngine.Proofs.Environment.Output
import TemplateEngine.Proofs.Environment.Settled
import TemplateEngine.Proofs.Expr.Shown

namespace TemplateEngine.WithTag

open Environment

variable {env : Environment} {depth : Nat} {name : String} {s : Scope} {selector : Selector} {t : Tag} {cs : List Block}
  {calls : List LoaderCall} {x : String} {d e : Expr} {v : Value}

/-! ## Renders -/

theorem renderBlock_eq (ht : t.args = .binding x d) :
    renderBlock (env.services depth) name (.tag plugin t cs) s selector = describeTag name t (do
      let v ← Render.ofResult (env.evaluate d s)
      renderBlocks (env.services depth) name .all cs (s.child [(x, v)]) .absent) := by
  rw [renderBlock]
  simp only [plugin, render, ht, bind_assoc, bind_map_left, Outcome.resolve, bind_pure, env.evaluate_services]

theorem resultAfter_eq_ok (ht : t.args = .binding x d) {text : String} :
    (renderBlock (env.services depth) name (.tag plugin t cs) s selector).resultAfter calls = .ok text ↔
      ∃ v, env.evaluate d s = .ok v ∧
        (renderBlocks (env.services depth) name .all cs (s.child [(x, v)]) .absent).resultAfter calls = .ok text := by
  rw [renderBlock_eq ht, resultAfter_describeTag_eq_ok, resultAfter_bind_eq_ok]
  rfl

/-- A tag of the family around one output prints its expression in the scope that it opens. -/
theorem resultAfter_output_eq_ok (ht : t.args = .binding x d) {source : String} {line : Nat}
    (he : Expr.read source = .ok e) {text : String} :
    (renderBlock (env.services depth) name (.tag plugin t [.output source line]) s selector).resultAfter calls = .ok text ↔
      ∃ v, env.evaluate d s = .ok v ∧ env.printed e (s.child [(x, v)]) = .ok text := by
  have hread (P : Expr → Prop) : (∃ e', Except.ok e = (.ok e' : Except ReadFailure Expr) ∧ P e') ↔ P e := by simp
  rw [resultAfter_eq_ok ht]
  refine exists_congr fun v => and_congr_right fun _ => ?_
  rw [renderBlocks_singleton (.inl rfl), renderBlock, resultAfter_outputText_eq_ok, printed_eq_ok, evaluate_services, he]
  simp only [exists_and_left, hread]

/-- An output in which an expression stands for a name prints what it prints where the name is bound to its value. -/
theorem printed_replace (hp : env.host.Pure) (hs : s.Settled) (hx : x ≠ Scope.filtersName) (hshown : d.isShown = true)
    (hd : env.evaluate d s = .ok v) (hv : v.Before s.level) {text : String} :
    env.printed e (s.child [(x, v)]) = .ok text ↔ env.printed (e.replace x d) s = .ok text := by
  rw [printed_eq_ok, printed_eq_ok]
  constructor
  · rintro ⟨w, hw, ht⟩
    obtain ⟨w', hw', halike⟩ := Evaluator.exists_replaced hp hs hx hshown hd hv hw
    exact ⟨w', hw', halike.outputText_eq.trans ht⟩
  · rintro ⟨w', hw', ht⟩
    obtain ⟨w, hw, halike⟩ := Evaluator.exists_bound hp hs hx hshown hd hv hw'
    exact ⟨w, hw, halike.outputText_eq.symm.trans ht⟩

/-- Where an expression has a value without new `nan`s, a name may be bound to the value, or the expression be put in the
place of the name: an expression has a value in the inner scope iff it has one in the outer scope when this is done, and
both are the same but for new `nan`s; and a tag that binds the name renders an output as the expression that is made in this
way is printed outside. The attributes that values have beside their own depend on the value alone, as the callables do on
their arguments; a method that is told apart by the object to which it is bound is no such attribute. -/
theorem bound_iff_replaced (hp : env.host.Pure) (hs : s.Settled) (hx : x ≠ Scope.filtersName) (hshown : d.isShown = true)
    (hd : env.evaluate d s = .ok v) (hv : v.Before s.level) (e : Expr) :
    (∀ w, env.evaluate e (s.child [(x, v)]) = .ok w →
      ∃ w', env.evaluate (e.replace x d) s = .ok w' ∧ w.Alike s.level w') ∧
    (∀ w', env.evaluate (e.replace x d) s = .ok w' →
      ∃ w, env.evaluate e (s.child [(x, v)]) = .ok w ∧ w.Alike s.level w') ∧
    (∀ w, w.Before s.level →
      (env.evaluate e (s.child [(x, v)]) = .ok w ↔ env.evaluate (e.replace x d) s = .ok w)) ∧
    ∀ (depth : Nat) (name : String) (t : Tag) (source : String) (line : Nat) (selector : Selector) (calls : List LoaderCall)
      (text : String), t.args = .binding x d → Expr.read source = .ok e →
      ((renderBlock (env.services depth) name (.tag plugin t [.output source line]) s selector).resultAfter calls = .ok text ↔
        env.printed (e.replace x d) s = .ok text) := by
  refine ⟨fun w hw => Evaluator.exists_replaced hp hs hx hshown hd hv hw,
    fun w' hw' => Evaluator.exists_bound hp hs hx hshown hd hv hw', fun w hold => ⟨fun hw => ?_, fun hw => ?_⟩, ?_⟩
  · obtain ⟨w', hw', halike⟩ := Evaluator.exists_replaced hp hs hx hshown hd hv hw
    rwa [halike.eq_of_before hold] at hw'
  · obtain ⟨w', hw', halike⟩ := Evaluator.exists_bound hp hs hx hshown hd hv hw
    rwa [← halike.eq_of_before (halike.before hold)] at hw'
  · intro depth name t source line selector calls text ht he
    rw [resultAfter_output_eq_ok ht he, ← printed_replace hp hs hx hshown hd hv]
    exact ⟨fun ⟨v', hv', h⟩ => Except.ok.inj (hv'.symm.trans hd) ▸ h, fun h => ⟨v, hd, h⟩⟩

/-- The list of a `nan` that is given in a context and of a number: as the list that a name is bound to it holds the same
`nan` as the one that stands in the place of the name. -/
theorem bound_iff_replaced_list : ∃ (env : Environment) (context : Value) (s : Scope) (t : Tag) (d e : Expr) (v : Value),
    env.host.Pure ∧ env.makeScope context = .ok s ∧ s.Settled ∧ "x" ≠ Scope.filtersName ∧ Expr.read "[n, 1]" = .ok d ∧
    d.isShown = true ∧ env.evaluate d s = .ok v ∧ v.Before s.level ∧ t.args = .binding "x" d ∧
    Expr.read "x == [n, 1] and x[1] + 1" = .ok e ∧ env.printed (e.replace "x" d) s = .ok "2" ∧
    (renderBlock (env.services 0) "t" (.tag plugin t [.output "x == [n, 1] and x[1] + 1" 1]) s .absent).resultAfter [] =
      .ok "2" := by
  let env : Environment := { loader := .ofTexts [] }
  let context : Value := .dict [(.str "n", .nan (.given 0))]
  let s : Scope := { bindings := [("n", .nan (.given 0))], outer := env.globalScope.chain }
  let d : Expr := .list [.name "n", .literal (.int 1)]
  let e : Expr := .logical .and (.compare .eq (.name "x") d)
    (.binary .add (.item (.name "x") (.literal (.int 1))) (.literal (.int 1)))
  let v : Value := .list [.nan (.given 0), .int 1]
  let t : Tag := ⟨"with", .opening, "x = [n, 1]", .binding "x" d, 1, "t"⟩
  have hgiven : (Value.nan (.given 0)).Before 0 := by
    rintro m ⟨⟩
    trivial
  have hint : (Value.int 1).Before 0 := by
    rintro m ⟨⟩
  have hcontext : context.Before 0 := .dict (by simpa using ⟨Value.before_str "n", hgiven⟩)
  have hv : v.Before 0 := .list (by simpa using ⟨hgiven, hint⟩)
  have hscope : env.makeScope context = .ok s := rfl
  have hs : s.Settled := settled_makeScope (onlyCallables_builtin rfl rfl) hcontext hscope
  have hread : Expr.read "[n, 1]" = .ok d := by with_unfolding_all rfl
  have hshown : d.isShown = true := Expr.isShown_of_read hread
  have he : Expr.read "x == [n, 1] and x[1] + 1" = .ok e := by with_unfolding_all rfl
  have hd : env.evaluate d s = .ok v := by with_unfolding_all rfl
  have hprinted : env.printed (e.replace "x" d) s = .ok "2" := eq_ok_of_toOption (by decide +kernel)
  obtain ⟨-, -, -, hrender⟩ := bound_iff_replaced (x := "x") Host.pure_empty hs (by decide) hshown hd hv e
  exact ⟨env, context, s, t, d, e, v, Host.pure_empty, hscope, hs, by decide, hread, hshown, hd, hv, rfl, he, hprinted,
    (hrender 0 "t" t _ 1 .absent [] "2" rfl he).2 hprinted⟩

/-- A `nan` that is bound to a name is one, and an expression that makes one makes another one at each of its places; and an
expression that cannot be shown is called by its value, but not by itself. -/
theorem not_bound_iff_replaced : ∃ (env : Environment) (s : Scope), env.host.Pure ∧ s.Settled ∧
    (∃ (d e : Expr) (v : Value), Expr.read "1e999 - 1e999" = .ok d ∧ Expr.read "[x] == [x]" = .ok e ∧
      env.evaluate d s = .ok v ∧ env.evaluate e (s.child [("x", v)]) = .ok (.bool true) ∧
      env.evaluate (e.replace "x" d) s = .ok (.bool false)) ∧
    ∃ (d e : Expr) (v : Value), d.isShown = false ∧ Expr.read "x()" = .ok e ∧ env.evaluate d s = .ok v ∧
      env.evaluate e (s.child [("x", v)]) = .ok (.dict []) ∧
      env.evaluate (e.replace "x" d) s = .error (.fault (.value .digitsWritten)) := by
  let env : Environment := { loader := .ofTexts [] }
  let s : Scope := { bindings := [("dict", .callable (.function .dict))] }
  let infinity : Expr := .literal (.float (Number.readFloat? "1e999").get!)
  let unshown : Expr := .conditional (.name "dict") (.literal (.bool true)) (.literal (.int (Nat.pow 10 4300)))
  have hunshown : unshown.isShown = false := by decide +kernel
  have hs : s.Settled := by
    intro n w hw
    obtain ⟨b, hb, hn⟩ := Scope.exists_of_resolve hw
    cases List.mem_singleton.1 hb
    cases List.mem_singleton.1 hn
    nofun
  refine ⟨env, s, Host.pure_empty, hs, ⟨.binary .sub infinity infinity, .compare .eq (.list [.name "x"]) (.list [.name "x"]),
    .nan (.made 0 0), ?_, ?_, ?_, ?_, ?_⟩, unshown, .call (.name "x") [], .callable (.function .dict), ?_, ?_, ?_, ?_, ?_⟩
  · with_unfolding_all rfl
  · with_unfolding_all rfl
  · with_unfolding_all rfl
  · with_unfolding_all rfl
  · with_unfolding_all rfl
  · exact hunshown
  · with_unfolding_all rfl
  · with_unfolding_all rfl
  · with_unfolding_all rfl
  · have hvalue : (⟨env.host, env.undefined⟩ : Evaluator).eval s unshown = .ok (.callable (.function .dict)) := by
      with_unfolding_all rfl
    show (⟨env.host, env.undefined⟩ : Evaluator).eval s (.call unshown []) = _
    rw [Evaluator.eval, hvalue, ok_bind]
    dsimp only
    rw [Evaluator.evalAll, ok_bind, Expr.shown, hunshown]
    rfl

end TemplateEngine.WithTag

/-
The built-in tags as scripts. A script asks for values of expressions, for the text of what a tag holds and for the texts
of other templates, and goes on with the answers. A tag is rendered by running its script, so that what the tag asks for,
and where a failure of it comes from, is read off there.
-/
import TemplateEngine.Proofs.Tag.Builtin
import TemplateEngine.Proofs.Template.Refine

namespace TemplateEngine

/-! ## Scripts -/

/-- What a tag asks for: the value of an expression, the texts of its children, or that of another template. -/
inductive Request where
  | value (e : Expr) (s : Scope)
  | children (s : Scope) (selector : Selector) (choice : ChildChoice)
  | template (id : String) (s : Scope) (base : String)

namespace Request

/-- What a request is answered with. -/
def Answer : Request → Type
  | value _ _ => Value
  | children _ _ _ => String
  | template _ _ _ => String

/-- The answer to a request, given what the environment does and how the children are rendered. -/
def answer (S : Services) (c : ChildrenRenderer) : (r : Request) → Render r.Answer
  | value e s => Render.ofResult (S.evaluate e s)
  | children s selector choice => c s selector choice
  | template id s base => S.renderInclude id s base

end Request

/-- A text, a failure, or a request and what to do with its answer. -/
inductive Script where
  | done (text : String)
  | fail (failure : Failure)
  | ask (r : Request) (next : r.Answer → Script)

namespace Script

/-- Goes on with a result. -/
def ofResult {α : Type} (r : Except Failure α) (next : α → Script) : Script :=
  match r with
  | .ok a => next a
  | .error failure => fail failure

/-- The value of an expression. -/
def value (e : Expr) (s : Scope) (next : Value → Script) : Script :=
  ask (.value e s) next

/-- The texts of the children. -/
def children (s : Scope) (selector : Selector) (choice : ChildChoice) (next : String → Script := done) : Script :=
  ask (.children s selector choice) next

variable (S : Services) (c : ChildrenRenderer)

/-- Runs a script. -/
def run : Script → Render String
  | done text => return text
  | fail failure => throw failure
  | ask r next => do (next (← r.answer S c)).run

/-- A script asks for something when it is run. -/
inductive Asks : Script → Request → Prop
  | now {r : Request} {next : r.Answer → Script} : Asks (ask r next) r
  | later {r q : Request} {next : r.Answer → Script} {calls : List LoaderCall} {a : r.Answer}
      (ha : (r.answer S c).resultAfter calls = .ok a) (h : Asks (next a) q) : Asks (ask r next) q

/-- A script ends in a failure of its own when it is run. -/
inductive Raises (failure : Failure) : Script → Prop
  | now : Raises failure (fail failure)
  | later {r : Request} {next : r.Answer → Script} {calls : List LoaderCall} {a : r.Answer}
      (ha : (r.answer S c).resultAfter calls = .ok a) (h : Raises failure (next a)) : Raises failure (ask r next)

variable {S c}

@[simp] theorem run_done (text : String) : (done text).run S c = pure text := rfl

@[simp] theorem run_fail (failure : Failure) : (fail failure).run S c = throw failure := rfl

@[simp] theorem run_value (e : Expr) (s : Scope) (next : Value → Script) :
    (value e s next).run S c = Render.ofResult (S.evaluate e s) >>= fun v => (next v).run S c := rfl

@[simp] theorem run_children (s : Scope) (selector : Selector) (choice : ChildChoice) (next : String → Script) :
    (children s selector choice next).run S c = c s selector choice >>= fun text => (next text).run S c := rfl

@[simp] theorem run_template (id : String) (s : Scope) (base : String) (next : String → Script) :
    (ask (.template id s base) next).run S c = S.renderInclude id s base >>= fun text => (next text).run S c := rfl

@[simp] theorem run_ofResult {α : Type} (r : Except Failure α) (next : α → Script) :
    (ofResult r next).run S c = Render.ofResult r >>= fun a => (next a).run S c := by
  cases r <;> rfl

/-! ### Requests -/

@[simp] theorem asks_done {text : String} {q : Request} : ¬ (done text).Asks S c q := nofun

@[simp] theorem asks_fail {failure : Failure} {q : Request} : ¬ (fail failure).Asks S c q := nofun

theorem asks_ask {r q : Request} {next : r.Answer → Script} : (ask r next).Asks S c q ↔
    q = r ∨ ∃ calls a, (r.answer S c).resultAfter calls = .ok a ∧ (next a).Asks S c q := by
  constructor
  · intro h
    cases h with
    | now => exact .inl rfl
    | later ha h => exact .inr ⟨_, _, ha, h⟩
  · rintro (rfl | ⟨calls, a, ha, h⟩)
    · exact .now
    · exact .later ha h

@[simp] theorem asks_value {e : Expr} {s : Scope} {next : Value → Script} {q : Request} :
    (value e s next).Asks S c q ↔ q = .value e s ∨ ∃ v, S.evaluate e s = .ok v ∧ (next v).Asks S c q :=
  asks_ask.trans ⟨Or.imp_right fun ⟨_, v, hv, h⟩ => ⟨v, hv, h⟩, Or.imp_right fun ⟨v, hv, h⟩ => ⟨[], v, hv, h⟩⟩

@[simp] theorem asks_children {s : Scope} {selector : Selector} {choice : ChildChoice} {next : String → Script}
    {q : Request} : (children s selector choice next).Asks S c q ↔ q = .children s selector choice ∨
      ∃ calls text, (c s selector choice).resultAfter calls = .ok text ∧ (next text).Asks S c q :=
  asks_ask

@[simp] theorem asks_template {id base : String} {s : Scope} {next : String → Script} {q : Request} :
    (ask (.template id s base) next).Asks S c q ↔ q = .template id s base ∨
      ∃ calls text, (S.renderInclude id s base).resultAfter calls = .ok text ∧ (next text).Asks S c q :=
  asks_ask

@[simp] theorem asks_ofResult {α : Type} {r : Except Failure α} {next : α → Script} {q : Request} :
    (ofResult r next).Asks S c q ↔ ∃ a, r = .ok a ∧ (next a).Asks S c q := by
  cases r <;> simp [ofResult]

/-! ### Failures -/

@[simp] theorem raises_done {text : String} {failure : Failure} : ¬ (done text).Raises S c failure := nofun

@[simp] theorem raises_fail {failure failure' : Failure} : (fail failure').Raises S c failure ↔ failure = failure' := by
  constructor
  · rintro ⟨⟩
    rfl
  · rintro rfl
    exact .now

theorem raises_ask {r : Request} {next : r.Answer → Script} {failure : Failure} : (ask r next).Raises S c failure ↔
    ∃ calls a, (r.answer S c).resultAfter calls = .ok a ∧ (next a).Raises S c failure := by
  constructor
  · rintro ⟨⟩
    exact ⟨_, _, ‹_›, ‹_›⟩
  · rintro ⟨calls, a, ha, h⟩
    exact .later ha h

@[simp] theorem raises_value {e : Expr} {s : Scope} {next : Value → Script} {failure : Failure} :
    (value e s next).Raises S c failure ↔ ∃ v, S.evaluate e s = .ok v ∧ (next v).Raises S c failure :=
  raises_ask.trans ⟨fun ⟨_, v, hv, h⟩ => ⟨v, hv, h⟩, fun ⟨v, hv, h⟩ => ⟨[], v, hv, h⟩⟩

@[simp] theorem raises_children {s : Scope} {selector : Selector} {choice : ChildChoice} {next : String → Script}
    {failure : Failure} : (children s selector choice next).Raises S c failure ↔
      ∃ calls text, (c s selector choice).resultAfter calls = .ok text ∧ (next text).Raises S c failure :=
  raises_ask

@[simp] theorem raises_template {id base : String} {s : Scope} {next : String → Script} {failure : Failure} :
    (ask (.template id s base) next).Raises S c failure ↔
      ∃ calls text, (S.renderInclude id s base).resultAfter calls = .ok text ∧ (next text).Raises S c failure :=
  raises_ask

@[simp] theorem raises_ofResult {α : Type} {r : Except Failure α} {next : α → Script} {failure : Failure} :
    (ofResult r next).Raises S c failure ↔ r = .error failure ∨ ∃ a, r = .ok a ∧ (next a).Raises S c failure := by
  cases r <;> simp [ofResult, eq_comm]

/-- A script fails by itself, or because something that it asks for fails. -/
theorem exists_of_run_error {script : Script} {calls : List LoaderCall} {failure : Failure}
    (h : (script.run S c).resultAfter calls = .error failure) : script.Raises S c failure ∨
      ∃ q calls', script.Asks S c q ∧ (q.answer S c).resultAfter calls' = .error failure := by
  induction script generalizing calls with
  | done text => cases h
  | fail failure' =>
    cases h
    exact .inl .now
  | ask r next ih =>
    rcases resultAfter_bind_eq_error.1 h with h | ⟨a, ha, h⟩
    · exact .inr ⟨r, calls, .now, h⟩
    · rcases ih a h with h | ⟨q, calls', hq, h⟩
      · exact .inl (.later ha h)
      · exact .inr ⟨q, calls', .later ha hq, h⟩

end Script

/-! ## The scripts of the built-in families -/

/-- Evaluates the expression of a tag. -/
def Tag.valueScript (t : Tag) (s : Scope) (next : Value → Script) : Script :=
  match t.args with
  | .expr e => .value e s next
  | _ => .fail (.fault (.foreign .attribute "'NoneType' object has no attribute 'get_type'"))

@[simp] theorem Tag.run_valueScript (t : Tag) (s : Scope) (next : Value → Script) (S : Services) (c : ChildrenRenderer) :
    (t.valueScript s next).run S c = t.evaluate S s >>= fun v => (next v).run S c := by
  unfold Tag.valueScript Tag.evaluate
  cases t.args <;> rfl

theorem Tag.asks_valueScript {t : Tag} {s : Scope} {next : Value → Script} {S : Services} {c : ChildrenRenderer}
    {q : Request} : (t.valueScript s next).Asks S c q ↔
      ∃ e, t.args = .expr e ∧ (q = .value e s ∨ ∃ v, S.evaluate e s = .ok v ∧ (next v).Asks S c q) := by
  unfold Tag.valueScript
  cases t.args <;> simp

theorem Tag.raises_valueScript {t : Tag} {s : Scope} {next : Value → Script} {S : Services} {c : ChildrenRenderer}
    {failure : Failure} (h : (t.valueScript s next).Raises S c failure) :
    (∃ text, failure = .fault (.foreign .attribute text)) ∨
      ∃ e v, t.args = .expr e ∧ S.evaluate e s = .ok v ∧ (next v).Raises S c failure := by
  unfold Tag.valueScript at h
  cases ha : t.args with
  | expr e =>
    rw [ha] at h
    obtain ⟨v, hv, h⟩ := Script.raises_value.1 h
    exact .inr ⟨e, v, rfl, hv, h⟩
  | none | loop | binding | value =>
    rw [ha] at h
    exact .inl ⟨_, Script.raises_fail.1 h⟩

namespace IfTag

/-- The body where the condition holds, and else the next inside tag. -/
def branchScript (t : Tag) (s : Scope) : Script :=
  t.valueScript s fun v => if v.truthy then .children s .taken .all else .children s .pending .insideTags

/-- An inside tag, told a selector. -/
def pickScript (t : Tag) (s : Scope) : Selector → Script
  | .taken => .done ""
  | _ => if t.name == "else" then .children s .taken .all else branchScript t s

/-- A tag of the family. -/
def script (t : Tag) (s : Scope) (selector : Selector) : Script :=
  match t.role with
  | .opening => branchScript t s
  | _ => pickScript t s selector

end IfTag

namespace SwitchTag

/-- A case, told the value to look for. -/
def caseScript (t : Tag) (s : Scope) (v : Value) : Script :=
  t.valueScript (s.holding v) fun candidates => .ofResult (liftFault (candidates.contains v)) fun found =>
    if found then .children s .taken .all else .children s (.subject v) .insideTags

/-- An inside tag, told a selector. -/
def pickScript (t : Tag) (s : Scope) : Selector → Script
  | .taken => .done ""
  | selector =>
    if t.name == "default" then .children s .taken .all
    else match selector with
      | .subject v => caseScript t s v
      | _ => .fail (.fault (.type (.outsideSwitch t.markup.text)))

/-- A tag of the family. -/
def script (t : Tag) (s : Scope) (selector : Selector) : Script :=
  match t.role with
  | .opening => t.valueScript s fun v => .children s (.subject v) .insideTags
  | _ => pickScript t s selector

end SwitchTag

namespace ForTag

/-- The rounds of a loop, and what to do with their text. -/
def roundsScript (target : String) (second : Option String) (s : Scope) (length index0 : Nat) (next : String → Script) :
    List Value → Script
  | [] => next ""
  | item :: items => .ofResult (bind target second item) fun b =>
    .children (s.child (b.insert "loop" (.loop index0 length))) .taken .all fun text =>
      roundsScript target second s length (index0 + 1) (fun rest => next (text ++ rest)) items

/-- An inside tag, told a selector. -/
def pickScript (s : Scope) : Selector → Script
  | .taken => .done ""
  | _ => .children s .taken .all

/-- A tag that opens a loop. -/
def openingScript (t : Tag) (s : Scope) : Script :=
  match t.args with
  | .loop target second iterable => .value iterable s fun v =>
    .ofResult ((collect v second.isSome).mapError .evaluation) fun items =>
      if items.isEmpty then .children s .pending .insideTags
      else roundsScript target second s items.length 0 .done items
  | _ => .fail (.fault (.foreign .attribute "'NoneType' object has no attribute 'iterable'"))

/-- A tag of the family. -/
def script (t : Tag) (s : Scope) (selector : Selector) : Script :=
  match t.role with
  | .inside => pickScript s selector
  | _ => openingScript t s

end ForTag

namespace WithTag

/-- The family `with`. -/
def script (t : Tag) (s : Scope) : Script :=
  match t.args with
  | .binding target value => .value value s fun v => .children (s.child [(target, v)]) .absent .all
  | _ => .fail (.fault (.foreign .attribute "'NoneType' object has no attribute 'value'"))

end WithTag

namespace ApplyTag

/-- The family `apply`. -/
def script (t : Tag) (s : Scope) : Script :=
  .children s .absent .all fun body =>
    t.valueScript (s.child [(bodyName, .str body)]) fun v => .ofResult (liftFault v.outputText) .done

end ApplyTag

namespace IncludeTag

/-- The family `include`. -/
def script (t : Tag) (s : Scope) : Script :=
  t.valueScript s fun v => .ofResult (liftFault v.outputText) fun id => .ask (.template id s t.template) .done

end IncludeTag

/-- The scripts of the tags of a family. -/
inductive TagPlugin.Scripted : TagPlugin → (Tag → Scope → Selector → Script) → Prop
  | ifTag : Scripted IfTag.plugin IfTag.script
  | switchTag : Scripted SwitchTag.plugin SwitchTag.script
  | forTag : Scripted ForTag.plugin ForTag.script
  | withTag : Scripted WithTag.plugin fun t s _ => WithTag.script t s
  | applyTag : Scripted ApplyTag.plugin fun t s _ => ApplyTag.script t s
  | includeTag : Scripted IncludeTag.plugin fun t s _ => IncludeTag.script t s

theorem exists_script {p : TagPlugin} (hp : p ∈ builtinTags) : ∃ f, p.Scripted f := by
  simp only [builtinTags, List.mem_cons, List.not_mem_nil, or_false] at hp
  rcases hp with rfl | rfl | rfl | rfl | rfl | rfl
  · exact ⟨_, .ifTag⟩
  · exact ⟨_, .switchTag⟩
  · exact ⟨_, .forTag⟩
  · exact ⟨_, .withTag⟩
  · exact ⟨_, .applyTag⟩
  · exact ⟨_, .includeTag⟩

section

variable {t : Tag} {s : Scope} {S : Services} {c : ChildrenRenderer} {selector : Selector}

theorem resolve_text (r : Render String) (family : String) :
    ((Outcome.text <$> r) >>= fun outcome => outcome.resolve family selector) = r := by
  simp [Outcome.resolve]

theorem resolve_choice {pick : Selector → Render Produced} {r : Render String} (h : pick selector = Produced.text <$> r)
    (family : String) : (Outcome.choice pick).resolve family selector = r := by
  simp [Outcome.resolve, h]

theorem IfTag.run_branchScript : (branchScript t s).run S c = branch t s S c := by
  rw [branchScript, Tag.run_valueScript, branch]
  refine bind_congr fun v => ?_
  split <;> simp

theorem IfTag.pick_eq : pick t s S c selector = Produced.text <$> (pickScript t s selector).run S c := by
  cases selector <;> simp only [pick, pickScript] <;> first | rfl | split <;> simp [run_branchScript]

theorem IfTag.run_script :
    (render t s S c >>= fun outcome => outcome.resolve plugin.family selector) = (script t s selector).run S c := by
  cases hr : t.role with
  | opening => rw [render, script, hr, resolve_text, run_branchScript]
  | inside | closing => rw [render, script, hr, pure_bind, resolve_choice pick_eq]

theorem SwitchTag.run_caseScript (v : Value) : (do
    let candidates ← t.evaluate S (s.holding v)
    if ← Render.ofResult (liftFault (candidates.contains v)) then c s .taken .all else c s (.subject v) .insideTags) =
      (caseScript t s v).run S c := by
  rw [caseScript, Tag.run_valueScript]
  refine bind_congr fun candidates => ?_
  rw [Script.run_ofResult]
  refine bind_congr fun found => ?_
  cases found <;> simp

theorem SwitchTag.pick_eq : pick t s S c selector = Produced.text <$> (pickScript t s selector).run S c := by
  cases selector with
  | taken => rfl
  | subject v =>
    simp only [pick, pickScript]
    split
    · simp
    · rw [← run_caseScript]
      simp only [map_bind]
      refine bind_congr fun candidates => bind_congr fun found => ?_
      split <;> rfl
  | absent | pending | word =>
    simp only [pick, pickScript]
    split
    · simp
    · rfl

theorem SwitchTag.run_script :
    (render t s S c >>= fun outcome => outcome.resolve plugin.family selector) = (script t s selector).run S c := by
  cases hr : t.role with
  | opening => simp [render, script, hr, Outcome.resolve]
  | inside | closing => rw [render, script, hr, pure_bind, resolve_choice pick_eq]

theorem ForTag.run_roundsScript {target : String} {second : Option String} {length : Nat} (items : List Value) (i : Nat)
    (next : String → Script) : (roundsScript target second s length i next items).run S c =
      rounds target second s c length i items >>= fun text => (next text).run S c := by
  induction items generalizing i next with
  | nil => simp [roundsScript, rounds]
  | cons item items ih => simp [roundsScript, rounds, ih]

theorem ForTag.pick_eq : pick s c selector = Produced.text <$> (pickScript s selector).run S c := by
  cases selector <;> simp [pick, pickScript]

theorem ForTag.run_script :
    (render t s S c >>= fun outcome => outcome.resolve plugin.family selector) = (script t s selector).run S c := by
  cases hr : t.role with
  | inside => rw [render, script, hr, pure_bind, resolve_choice pick_eq]
  | opening | closing =>
    cases ha : t.args with
    | loop target second iterable =>
      simp only [render, script, openingScript, hr, ha, bind_assoc, Script.run_value, Script.run_ofResult]
      refine bind_congr fun v => bind_congr fun items => ?_
      split <;> rw [resolve_text] <;> simp [run_roundsScript]
    | none | expr | binding | value => simp [render, script, openingScript, hr, ha]

theorem WithTag.run_script :
    (render t s S c >>= fun outcome => outcome.resolve plugin.family selector) = (script t s).run S c := by
  unfold render script
  cases t.args <;> simp [Outcome.resolve]

theorem ApplyTag.run_script :
    (render t s S c >>= fun outcome => outcome.resolve plugin.family selector) = (script t s).run S c := by
  simp [render, script, Outcome.resolve]

theorem IncludeTag.run_script :
    (render t s S c >>= fun outcome => outcome.resolve plugin.family selector) = (script t s).run S c := by
  simp [render, script, Outcome.resolve]

/-- A tag of a built-in family is rendered by running its script. -/
theorem TagPlugin.Scripted.run {p : TagPlugin} {f : Tag → Scope → Selector → Script} (h : p.Scripted f) :
    (p.render t s S c >>= fun outcome => outcome.resolve p.family selector) = (f t s selector).run S c := by
  cases h with
  | ifTag => exact IfTag.run_script
  | switchTag => exact SwitchTag.run_script
  | forTag => exact ForTag.run_script
  | withTag => exact WithTag.run_script
  | applyTag => exact ApplyTag.run_script
  | includeTag => exact IncludeTag.run_script

/-- The scripts of the tags of any family: those of a built-in one, and those of a family of the embedding program that
only asks for things and goes on with the answers. -/
inductive TagPlugin.RunsAs (p : TagPlugin) (f : Tag → Scope → Selector → Script) : Prop
  | builtin (h : p.Scripted f)
  | custom (hp : p ∉ builtinTags) (h : ∀ t s S c selector,
      (p.render t s S c >>= fun outcome => outcome.resolve p.family selector) = (f t s selector).run S c)

theorem TagPlugin.RunsAs.run {p : TagPlugin} {f : Tag → Scope → Selector → Script} (h : p.RunsAs f) :
    (p.render t s S c >>= fun outcome => outcome.resolve p.family selector) = (f t s selector).run S c := by
  cases h with
  | builtin h => exact h.run
  | custom hp h => exact h t s S c selector

theorem TagPlugin.RunsAs.scripted {p : TagPlugin} {f : Tag → Scope → Selector → Script} (h : p.RunsAs f)
    (hp : p ∈ builtinTags) : p.Scripted f := by
  cases h with
  | builtin h => exact h
  | custom hno h => exact absurd hp hno

end

end TemplateEngine

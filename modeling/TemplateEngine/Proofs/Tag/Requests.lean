/-
What the built-in tags ask for, and how they fail by themselves. A tag tells its children a selector of its own family,
and asks for things in its own scope or in one that binds its names inside of it.
-/
import TemplateEngine.Proofs.Tag.Script
import TemplateEngine.Proofs.Template.Names

namespace TemplateEngine

/-- The scope of a request. -/
def Request.scope : Request → Scope
  | value _ s => s
  | children s _ _ => s
  | template _ s _ => s

section

variable {t : Tag} {s s' : Scope} {S : Services} {c : ChildrenRenderer} {selector selector' : Selector}
  {choice : ChildChoice} {q : Request} {failure : Failure}

/-! ## Children -/

theorem IfTag.asks_branchScript (h : (branchScript t s).Asks S c q) : ∃ e, t.args = .expr e ∧
    (q = .value e s ∨ q = .children s .taken .all ∨ q = .children s .pending .insideTags) := by
  obtain ⟨e, he, h | ⟨v, -, h⟩⟩ := Tag.asks_valueScript.1 h
  · exact ⟨e, he, .inl h⟩
  · split at h
    · exact ⟨e, he, .inr (.inl (by simpa using h))⟩
    · exact ⟨e, he, .inr (.inr (by simpa using h))⟩

theorem IfTag.asks_script (h : (script t s selector).Asks S c q) :
    q = .children s .taken .all ∨ (branchScript t s).Asks S c q := by
  unfold script at h
  split at h
  · exact .inr h
  · unfold pickScript at h
    split at h
    · exact absurd h Script.asks_done
    · split at h
      · exact .inl (by simpa using h)
      · exact .inr h

/-- A tag of the family `if` tells its children that a branch was taken, or the inside tag that none was. -/
theorem IfTag.asks_children (h : (script t s selector).Asks S c (.children s' selector' choice)) :
    s' = s ∧ (selector' = .taken ∧ choice = .all ∨ selector' = .pending ∧ choice = .insideTags) := by
  rcases asks_script h with h | h
  · cases h
    exact ⟨rfl, .inl ⟨rfl, rfl⟩⟩
  · obtain ⟨e, -, h | h | h⟩ := asks_branchScript h
    · cases h
    · cases h
      exact ⟨rfl, .inl ⟨rfl, rfl⟩⟩
    · cases h
      exact ⟨rfl, .inr ⟨rfl, rfl⟩⟩

/-- A round of a loop, the bindings of which are those of its item and the state of the loop. -/
theorem ForTag.asks_roundsScript {target : String} {second : Option String} {length : Nat} {items : List Value} {i : Nat}
    (h : (roundsScript target second s length i .done items).Asks S c q) : ∃ item ∈ items, ∃ index b,
      bind target second item = .ok b ∧ q = .children (s.child (b.insert "loop" (.loop index length))) .taken .all := by
  suffices hall : ∀ next : String → Script, (∀ text, ¬ (next text).Asks S c q) →
      (roundsScript target second s length i next items).Asks S c q → ∃ item ∈ items, ∃ index b,
        bind target second item = .ok b ∧ q = .children (s.child (b.insert "loop" (.loop index length))) .taken .all from
    hall .done (fun _ => Script.asks_done) h
  clear h
  induction items generalizing i with
  | nil => exact fun next hnext h => absurd h (hnext "")
  | cons item items ih =>
    intro next hnext h
    obtain ⟨b, hb, h⟩ := Script.asks_ofResult.1 h
    rcases Script.asks_children.1 h with rfl | ⟨-, text, -, h⟩
    · exact ⟨item, List.mem_cons_self, i, b, hb, rfl⟩
    · obtain ⟨item', hitem, hround⟩ := ih _ (fun rest => hnext (text ++ rest)) h
      exact ⟨item', List.mem_cons_of_mem item hitem, hround⟩

/-- A tag that opens a loop asks for its items, for the inside tag if there are none, and else for its rounds. -/
theorem ForTag.asks_openingScript (h : (openingScript t s).Asks S c q) : ∃ target second iterable,
    t.args = .loop target second iterable ∧ (q = .value iterable s ∨ q = .children s .pending .insideTags ∨
      ∃ v items, S.evaluate iterable s = .ok v ∧ collect v second.isSome = .ok items ∧ ∃ item ∈ items, ∃ index b,
        bind target second item = .ok b ∧
          q = .children (s.child (b.insert "loop" (.loop index items.length))) .taken .all) := by
  unfold openingScript at h
  split at h
  · rename_i target second iterable ha
    refine ⟨target, second, iterable, ha, ?_⟩
    rcases Script.asks_value.1 h with rfl | ⟨v, hv, h⟩
    · exact .inl rfl
    · obtain ⟨items, hitems, h⟩ := Script.asks_ofResult.1 h
      split at h
      · simp_all
      · exact .inr (.inr ⟨v, items, hv, mapError_eq_ok.1 hitems, asks_roundsScript h⟩)
  · exact absurd h Script.asks_fail

theorem ForTag.asks_script (h : (script t s selector).Asks S c q) :
    q = .children s .taken .all ∨ (openingScript t s).Asks S c q := by
  unfold script at h
  split at h
  · unfold pickScript at h
    split at h
    · exact absurd h Script.asks_done
    · exact .inl (by simpa using h)
  · exact .inr h

/-- A tag of the family `for` tells its children that a branch was taken, or the inside tag that none was. -/
theorem ForTag.asks_children (h : (script t s selector).Asks S c (.children s' selector' choice)) :
    selector' = .taken ∧ choice = .all ∨ s' = s ∧ selector' = .pending ∧ choice = .insideTags := by
  rcases asks_script h with h | h
  · cases h
    exact .inl ⟨rfl, rfl⟩
  · obtain ⟨target, second, iterable, -, h | h | ⟨v, items, -, -, item, -, index, b, -, h⟩⟩ := asks_openingScript h
    · cases h
    · cases h
      exact .inr ⟨rfl, rfl, rfl⟩
    · cases h
      exact .inl ⟨rfl, rfl⟩

theorem SwitchTag.asks_opening (hr : t.role = .opening) (h : (script t s selector).Asks S c q) :
    ∃ e, t.args = .expr e ∧ (q = .value e s ∨
      ∃ v, S.evaluate e s = .ok v ∧ q = .children s (.subject v) .insideTags) := by
  unfold script at h
  rw [hr] at h
  obtain ⟨e, he, h | ⟨v, hv, h⟩⟩ := Tag.asks_valueScript.1 h
  · exact ⟨e, he, .inl h⟩
  · exact ⟨e, he, .inr ⟨v, hv, by simpa using h⟩⟩

theorem SwitchTag.asks_caseScript {v : Value} (h : (caseScript t s v).Asks S c q) : ∃ e, t.args = .expr e ∧
    (q = .value e (s.holding v) ∨ q = .children s .taken .all ∨ q = .children s (.subject v) .insideTags) := by
  obtain ⟨e, he, h | ⟨candidates, -, h⟩⟩ := Tag.asks_valueScript.1 h
  · exact ⟨e, he, .inl h⟩
  · obtain ⟨found, -, h⟩ := Script.asks_ofResult.1 h
    cases found
    · exact ⟨e, he, .inr (.inr (by simpa using h))⟩
    · exact ⟨e, he, .inr (.inl (by simpa using h))⟩

theorem SwitchTag.asks_inside (hr : t.role ≠ .opening) (h : (script t s selector).Asks S c q) :
    q = .children s .taken .all ∨ ∃ v, selector = .subject v ∧ (caseScript t s v).Asks S c q := by
  unfold script at h
  split at h
  · exact absurd ‹_› hr
  cases selector with
  | taken => exact absurd h Script.asks_done
  | subject v =>
    simp only [pickScript] at h
    split at h
    · exact .inl (by simpa using h)
    · exact .inr ⟨v, rfl, h⟩
  | absent | pending | word =>
    simp only [pickScript] at h
    split at h
    · exact .inl (by simpa using h)
    · exact absurd h Script.asks_fail

/-- A `switch` tells its children the value of its expression. -/
theorem SwitchTag.asks_children_opening (hr : t.role = .opening)
    (h : (script t s selector).Asks S c (.children s' selector' choice)) : ∃ e v, t.args = .expr e ∧
      S.evaluate e s = .ok v ∧ s' = s ∧ selector' = .subject v ∧ choice = .insideTags := by
  obtain ⟨e, he, h | ⟨v, hv, h⟩⟩ := asks_opening hr h
  · cases h
  · cases h
    exact ⟨e, v, he, hv, rfl, rfl, rfl⟩

/-- A `case` tells its children that a branch was taken, or passes the value on that it was told itself. -/
theorem SwitchTag.asks_children_inside (hr : t.role ≠ .opening)
    (h : (script t s selector).Asks S c (.children s' selector' choice)) :
    s' = s ∧ (selector' = .taken ∧ choice = .all ∨
      ∃ v, selector = .subject v ∧ selector' = .subject v ∧ choice = .insideTags) := by
  rcases asks_inside hr h with h | ⟨v, hv, h⟩
  · cases h
    exact ⟨rfl, .inl ⟨rfl, rfl⟩⟩
  · obtain ⟨e, -, h | h | h⟩ := asks_caseScript h
    · cases h
    · cases h
      exact ⟨rfl, .inl ⟨rfl, rfl⟩⟩
    · cases h
      exact ⟨rfl, .inr ⟨v, hv, rfl, rfl⟩⟩

theorem WithTag.asks_script (h : (script t s).Asks S c q) : ∃ target e, t.args = .binding target e ∧
    (q = .value e s ∨ ∃ v, S.evaluate e s = .ok v ∧ q = .children (s.child [(target, v)]) .absent .all) := by
  unfold script at h
  split at h
  · rename_i target e ha
    rcases Script.asks_value.1 h with h | ⟨v, hv, h⟩
    · exact ⟨target, e, ha, .inl h⟩
    · exact ⟨target, e, ha, .inr ⟨v, hv, by simpa using h⟩⟩
  · exact absurd h Script.asks_fail

theorem ApplyTag.asks_script (h : (script t s).Asks S c q) : q = .children s .absent .all ∨
    ∃ e body, t.args = .expr e ∧ q = .value e (s.child [(bodyName, .str body)]) := by
  rcases Script.asks_children.1 h with h | ⟨-, body, -, h⟩
  · exact .inl h
  · obtain ⟨e, he, h | ⟨v, -, h⟩⟩ := Tag.asks_valueScript.1 h
    · exact .inr ⟨e, body, he, h⟩
    · simp at h

theorem IncludeTag.asks_script (h : (script t s).Asks S c q) : ∃ e, t.args = .expr e ∧
    (q = .value e s ∨ ∃ id, q = .template id s t.template) := by
  obtain ⟨e, he, h | ⟨v, -, h⟩⟩ := Tag.asks_valueScript.1 h
  · exact ⟨e, he, .inl h⟩
  · obtain ⟨id, -, h⟩ := Script.asks_ofResult.1 h
    exact ⟨e, he, .inr ⟨id, by simpa using h⟩⟩

/-! ## Scopes -/

/-- An item is bound to targets only. -/
theorem ForTag.mem_targets_of_bind {target n : String} {second : Option String} {item v : Value} {b : Bindings}
    (hb : bind target second item = .ok b) (hn : b.value? n = some v) : n = target ∨ second = some n := by
  unfold bind at hb
  split at hb
  · cases hb
    rw [Bindings.value?_cons] at hn
    split at hn
    · rename_i h
      exact .inl h.symm
    · cases hn
  · split at hb
    · cases hb
      rw [Bindings.value?_insert, Bindings.value?_cons] at hn
      split at hn
      · rename_i h
        exact .inr (congrArg some h)
      · split at hn
        · rename_i h
          exact .inl h.symm
        · cases hn
    · cases hb
    · exact absurd hb Evaluator.shown_ne_ok

/-- The names that a round of a loop binds. -/
theorem ForTag.mem_bound_of_bind {target : String} {second : Option String} {iterable : Expr} {item : Value} {b : Bindings}
    {index length : Nat} (ha : t.args = .loop target second iterable) (hb : bind target second item = .ok b) {n : String}
    (hn : ((b.insert "loop" (.loop index length)).value? n).isSome) : n ∈ t.args.bound := by
  rw [ha, TagArgs.bound]
  rw [Bindings.value?_insert] at hn
  split at hn
  · rename_i hloop
    exact hloop ▸ List.mem_cons_self ..
  · obtain ⟨v, hv⟩ := Option.isSome_iff_exists.1 hn
    refine List.mem_cons_of_mem _ ?_
    rcases mem_targets_of_bind hb hv with rfl | rfl
    · exact List.mem_cons_self ..
    · exact List.mem_cons_of_mem _ (List.mem_singleton_self _)

/-- A scope that is asked about starts from that of the tag: it has the same bindings, or binds names of the tag inside
of them. -/
theorem TagPlugin.Scripted.scope {p : TagPlugin} {f : Tag → Scope → Selector → Script} (h : p.Scripted f)
    (ha : (f t s selector).Asks S c q) : q.scope.chain = s.chain ∨ ∃ b, q.scope = s.child b ∧
      ∀ n, (b.value? n).isSome → n ∈ t.args.bound ∨ n = ApplyTag.bodyName := by
  cases h with
  | ifTag =>
    rcases IfTag.asks_script ha with rfl | ha
    · exact .inl rfl
    · obtain ⟨e, -, rfl | rfl | rfl⟩ := IfTag.asks_branchScript ha <;> exact .inl rfl
  | switchTag =>
    by_cases hr : t.role = .opening
    · obtain ⟨e, -, rfl | ⟨v, -, rfl⟩⟩ := SwitchTag.asks_opening hr ha <;> exact .inl rfl
    · rcases SwitchTag.asks_inside hr ha with rfl | ⟨v, -, ha⟩
      · exact .inl rfl
      · obtain ⟨e, -, rfl | rfl | rfl⟩ := SwitchTag.asks_caseScript ha <;> exact .inl rfl
  | forTag =>
    rcases ForTag.asks_script ha with rfl | ha
    · exact .inl rfl
    · obtain ⟨target, second, iterable, hargs, rfl | rfl | ⟨v, items, -, -, item, -, index, b, hb, rfl⟩⟩ :=
        ForTag.asks_openingScript ha
      · exact .inl rfl
      · exact .inl rfl
      · exact .inr ⟨_, rfl, fun n hn => .inl (ForTag.mem_bound_of_bind hargs hb hn)⟩
  | withTag =>
    obtain ⟨target, e, hargs, rfl | ⟨v, -, rfl⟩⟩ := WithTag.asks_script ha
    · exact .inl rfl
    · refine .inr ⟨_, rfl, fun n hn => .inl ?_⟩
      rw [hargs, TagArgs.bound]
      rw [Bindings.value?_cons] at hn
      split at hn
      · rename_i h
        exact h ▸ List.mem_singleton_self _
      · cases hn
  | applyTag =>
    rcases ApplyTag.asks_script ha with rfl | ⟨e, body, -, rfl⟩
    · exact .inl rfl
    · refine .inr ⟨_, rfl, fun n hn => .inr ?_⟩
      rw [Bindings.value?_cons] at hn
      split at hn
      · rename_i h
        exact h.symm
      · cases hn
  | includeTag =>
    obtain ⟨e, -, rfl | ⟨id, rfl⟩⟩ := IncludeTag.asks_script ha <;> exact .inl rfl

/-! ## Failures -/

theorem IfTag.raises_script (h : (script t s selector).Raises S c failure) :
    ∃ text, failure = .fault (.foreign .attribute text) := by
  have hbranch (h : (branchScript t s).Raises S c failure) : ∃ text, failure = .fault (.foreign .attribute text) := by
    rcases Tag.raises_valueScript h with h | ⟨e, v, -, -, h⟩
    · exact h
    · split at h <;> simp at h
  unfold script at h
  split at h
  · exact hbranch h
  · unfold pickScript at h
    split at h
    · exact absurd h Script.raises_done
    · split at h
      · simp at h
      · exact hbranch h

/-- What is wrong with a `switch` or a `case`: its value cannot be looked for among the candidates, or there is none. -/
theorem SwitchTag.raises_script (h : (script t s selector).Raises S c failure) :
    (∃ text, failure = .fault (.foreign .attribute text)) ∨
      (∃ candidates v fault, Value.contains candidates v = .error fault ∧ failure = .fault fault) ∨
      t.role ≠ .opening ∧ selector ≠ .taken ∧ (∀ v, selector ≠ .subject v) ∧
        failure = .fault (.type (.outsideSwitch t.markup.text)) := by
  unfold script at h
  split at h
  · rcases Tag.raises_valueScript h with h | ⟨e, v, -, -, h⟩
    · exact .inl h
    · simp at h
  rename_i hr
  cases selector with
  | taken => exact absurd h Script.raises_done
  | subject v =>
    simp only [pickScript] at h
    split at h
    · simp at h
    · rcases Tag.raises_valueScript h with h | ⟨e, candidates, -, -, h⟩
      · exact .inl h
      · rcases Script.raises_ofResult.1 h with h | ⟨found, -, h⟩
        · right; left
          cases hc : candidates.contains v with
          | ok found => rw [hc] at h; cases h
          | error fault => rw [hc] at h; cases h; exact ⟨candidates, v, fault, hc, rfl⟩
        · split at h <;> simp at h
  | absent | pending | word =>
    simp only [pickScript] at h
    split at h
    · simp at h
    · exact .inr (.inr ⟨hr, by simp, by simp, Script.raises_fail.1 h⟩)

/-- An item that cannot be taken apart. -/
theorem ForTag.bind_error_cases {target : String} {second : Option String} {item : Value}
    (h : bind target second item = .error failure) : (∃ kind text, failure = .fault (.foreign kind text)) ∨
      (∃ fault, item.quotedForm = .error fault ∧ failure = .fault fault) ∨
      ∃ shown targets, failure = .evaluation (.unpacking shown targets) := by
  unfold bind at h
  split at h
  · cases h
  · split at h
    · cases h
    · cases h
      exact .inl ⟨_, _, rfl⟩
    · right
      cases hq : item.quotedForm with
      | ok shown => rw [hq] at h; cases h; exact .inr ⟨_, _, rfl⟩
      | error fault => rw [hq] at h; cases h; exact .inl ⟨fault, rfl, rfl⟩

theorem ForTag.raises_roundsScript {target : String} {second : Option String} {length : Nat} {items : List Value} {i : Nat}
    (h : (roundsScript target second s length i .done items).Raises S c failure) :
    ∃ item, bind target second item = .error failure := by
  suffices hall : ∀ next : String → Script, (∀ text, ¬ (next text).Raises S c failure) →
      (roundsScript target second s length i next items).Raises S c failure →
      ∃ item, bind target second item = .error failure from
    hall .done (fun _ => Script.raises_done) h
  clear h
  induction items generalizing i with
  | nil => exact fun next hnext h => absurd h (hnext "")
  | cons item items ih =>
    intro next hnext h
    rcases Script.raises_ofResult.1 h with h | ⟨b, -, h⟩
    · exact ⟨item, h⟩
    · obtain ⟨-, text, -, h⟩ := Script.raises_children.1 h
      exact ih _ (fun rest => hnext (text ++ rest)) h

/-- What is wrong with a loop: there are no items to go through, or one of them cannot be taken apart. -/
theorem ForTag.raises_script (h : (script t s selector).Raises S c failure) :
    (∃ kind text, failure = .fault (.foreign kind text)) ∨
      (∃ item fault, Value.quotedForm item = .error fault ∧ failure = .fault fault) ∨
      (∃ type, failure = .evaluation (.iteration type)) ∨
      ∃ shown targets, failure = .evaluation (.unpacking shown targets) := by
  unfold script at h
  split at h
  · unfold pickScript at h
    split at h <;> simp at h
  · unfold openingScript at h
    split at h
    · obtain ⟨v, -, h⟩ := Script.raises_value.1 h
      rcases Script.raises_ofResult.1 h with h | ⟨items, -, h⟩
      · unfold collect at h
        split at h <;> cases h
        exact .inr (.inr (.inl ⟨_, rfl⟩))
      · split at h
        · simp at h
        · obtain ⟨item, h⟩ := raises_roundsScript h
          rcases bind_error_cases h with h | ⟨fault, hq, h⟩ | h
          · exact .inl h
          · exact .inr (.inl ⟨item, fault, hq, h⟩)
          · exact .inr (.inr (.inr h))
    · exact .inl ⟨_, _, Script.raises_fail.1 h⟩

theorem WithTag.raises_script (h : (script t s).Raises S c failure) :
    ∃ text, failure = .fault (.foreign .attribute text) := by
  unfold script at h
  split at h
  · simp at h
  · exact ⟨_, Script.raises_fail.1 h⟩

/-- A tag that reads the output form of a value. -/
theorem raises_outputText {next : String → Script} {v : Value} (hnext : ∀ text, ¬ (next text).Raises S c failure)
    (h : (Script.ofResult (liftFault v.outputText) next).Raises S c failure) :
    ∃ fault, v.outputText = .error fault ∧ failure = .fault fault := by
  rcases Script.raises_ofResult.1 h with h | ⟨text, -, h⟩
  · exact liftFault_eq_error h
  · exact absurd h (hnext text)

theorem ApplyTag.raises_script (h : (script t s).Raises S c failure) :
    (∃ text, failure = .fault (.foreign .attribute text)) ∨
      ∃ v fault, Value.outputText v = .error fault ∧ failure = .fault fault := by
  obtain ⟨-, body, -, h⟩ := Script.raises_children.1 h
  rcases Tag.raises_valueScript h with h | ⟨e, v, -, -, h⟩
  · exact .inl h
  · exact .inr ⟨v, raises_outputText (fun _ => Script.raises_done) h⟩

theorem IncludeTag.raises_script (h : (script t s).Raises S c failure) :
    (∃ text, failure = .fault (.foreign .attribute text)) ∨
      ∃ v fault, Value.outputText v = .error fault ∧ failure = .fault fault := by
  rcases Tag.raises_valueScript h with h | ⟨e, v, -, -, h⟩
  · exact .inl h
  · exact .inr ⟨v, raises_outputText (by simp) h⟩

/-- A tag fails by itself with a fault, or as there is nothing to loop over. -/
theorem TagPlugin.Scripted.raises {p : TagPlugin} {f : Tag → Scope → Selector → Script} (h : p.Scripted f)
    (hf : (f t s selector).Raises S c failure) : (∃ fault, failure = .fault fault) ∨
      p = ForTag.plugin ∧ ((∃ type, failure = .evaluation (.iteration type)) ∨
        ∃ shown targets, failure = .evaluation (.unpacking shown targets)) := by
  cases h with
  | ifTag =>
    obtain ⟨text, h⟩ := IfTag.raises_script hf
    exact .inl ⟨_, h⟩
  | switchTag =>
    rcases SwitchTag.raises_script hf with ⟨text, h⟩ | ⟨-, -, fault, -, h⟩ | ⟨-, -, -, h⟩ <;> exact .inl ⟨_, h⟩
  | forTag =>
    rcases ForTag.raises_script hf with ⟨kind, text, h⟩ | ⟨-, fault, -, h⟩ | h
    · exact .inl ⟨_, h⟩
    · exact .inl ⟨_, h⟩
    · exact .inr ⟨rfl, h⟩
  | withTag =>
    obtain ⟨text, h⟩ := WithTag.raises_script hf
    exact .inl ⟨_, h⟩
  | applyTag => rcases ApplyTag.raises_script hf with ⟨text, h⟩ | ⟨-, fault, -, h⟩ <;> exact .inl ⟨_, h⟩
  | includeTag => rcases IncludeTag.raises_script hf with ⟨text, h⟩ | ⟨-, fault, -, h⟩ <;> exact .inl ⟨_, h⟩

end

end TemplateEngine

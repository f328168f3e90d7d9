/-
What a visited tag leads to. It leads to the branch that it holds only where that branch is the one to take, and else to
the inside tag behind it at most. So a render does not come to a branch that was not taken, to what stands in front of
the cases of a switch, or to the body of a loop without items.
-/
import TemplateEngine.Proofs.Environment.Selectors

namespace TemplateEngine

open Template

namespace Environment

/-- A visited tag takes the branch that it holds: a condition holds, a case has the value among its candidates, a loop has
items, or there is nothing to decide. -/
inductive Enters (env : Environment) : Visit → Prop
  | condition {depth : Nat} {t : Template} {tag : Tag} {cs : List Block} {s : Scope} {selector : Selector} {e : Expr}
      {x : Value} (ha : tag.args = .expr e) (he : env.evaluate e s = .ok x) (hx : x.truthy = true) :
      Enters env ⟨depth, t, .tag IfTag.plugin tag cs, s, selector⟩
  | orElse {depth : Nat} {t : Template} {tag : Tag} {cs : List Block} {s : Scope} {selector : Selector}
      (hr : tag.role ≠ .opening) (hn : tag.name = "else") :
      Enters env ⟨depth, t, .tag IfTag.plugin tag cs, s, selector⟩
  | case {depth : Nat} {t : Template} {tag : Tag} {cs : List Block} {s : Scope} {e : Expr} {x candidates : Value}
      (hr : tag.role ≠ .opening) (ha : tag.args = .expr e) (he : env.evaluate e (s.holding x) = .ok candidates)
      (hx : candidates.contains x = .ok true) :
      Enters env ⟨depth, t, .tag SwitchTag.plugin tag cs, s, .subject x⟩
  | default {depth : Nat} {t : Template} {tag : Tag} {cs : List Block} {s : Scope} {selector : Selector}
      (hr : tag.role ≠ .opening) (hn : tag.name = "default") :
      Enters env ⟨depth, t, .tag SwitchTag.plugin tag cs, s, selector⟩
  | rounds {depth : Nat} {t : Template} {tag : Tag} {cs : List Block} {s : Scope} {selector : Selector} {target : String}
      {second : Option String} {iterable : Expr} {x : Value} {items : List Value} (hr : tag.role ≠ .inside)
      (ha : tag.args = .loop target second iterable) (he : env.evaluate iterable s = .ok x)
      (hx : ForTag.collect x second.isSome = .ok items) (hitems : items ≠ []) :
      Enters env ⟨depth, t, .tag ForTag.plugin tag cs, s, selector⟩
  | empty {depth : Nat} {t : Template} {tag : Tag} {cs : List Block} {s : Scope} {selector : Selector}
      (hr : tag.role = .inside) : Enters env ⟨depth, t, .tag ForTag.plugin tag cs, s, selector⟩
  | withTag {depth : Nat} {t : Template} {tag : Tag} {cs : List Block} {s : Scope} {selector : Selector} :
      Enters env ⟨depth, t, .tag WithTag.plugin tag cs, s, selector⟩
  | applyTag {depth : Nat} {t : Template} {tag : Tag} {cs : List Block} {s : Scope} {selector : Selector} :
      Enters env ⟨depth, t, .tag ApplyTag.plugin tag cs, s, selector⟩
  | includeTag {depth : Nat} {t : Template} {tag : Tag} {cs : List Block} {s : Scope} {selector : Selector} :
      Enters env ⟨depth, t, .tag IncludeTag.plugin tag cs, s, selector⟩

/-- A visited tag leaves the choice to the inside tag behind it: a condition does not hold, a case does not have the value
among its candidates, a loop has no items; and a switch does so always. -/
inductive Passes (env : Environment) : Visit → Prop
  | condition {depth : Nat} {t : Template} {tag : Tag} {cs : List Block} {s : Scope} {selector : Selector} {e : Expr}
      {x : Value} (ha : tag.args = .expr e) (he : env.evaluate e s = .ok x) (hx : x.truthy = false) :
      Passes env ⟨depth, t, .tag IfTag.plugin tag cs, s, selector⟩
  | switch {depth : Nat} {t : Template} {tag : Tag} {cs : List Block} {s : Scope} {selector : Selector}
      (hr : tag.role = .opening) : Passes env ⟨depth, t, .tag SwitchTag.plugin tag cs, s, selector⟩
  | case {depth : Nat} {t : Template} {tag : Tag} {cs : List Block} {s : Scope} {e : Expr} {x candidates : Value}
      (hr : tag.role ≠ .opening) (ha : tag.args = .expr e) (he : env.evaluate e (s.holding x) = .ok candidates)
      (hx : candidates.contains x = .ok false) :
      Passes env ⟨depth, t, .tag SwitchTag.plugin tag cs, s, .subject x⟩
  | loop {depth : Nat} {t : Template} {tag : Tag} {cs : List Block} {s : Scope} {selector : Selector} {target : String}
      {second : Option String} {iterable : Expr} {x : Value} (hr : tag.role ≠ .inside)
      (ha : tag.args = .loop target second iterable) (he : env.evaluate iterable s = .ok x)
      (hx : ForTag.collect x second.isSome = .ok []) :
      Passes env ⟨depth, t, .tag ForTag.plugin tag cs, s, selector⟩

/-- The way from a visited tag to one of the blocks behind it. An inside tag that was told that a branch was taken leads
nowhere; to a block of its branch a tag leads where it takes that branch; and to an inside tag where it leaves the choice
to that one, or tells it that a branch was taken. -/
structure Selects (env : Environment) (u w : Visit) : Prop where
  told : u.block.isInside = true → u.selector ≠ .taken
  branch : w.block.isInside = false → env.Enters u
  inside : w.block.isInside = true → w.selector = .taken ∨ env.Passes u

/-- What a tag that asks for its children has chosen: all of them where it takes its branch, and the inside tags where it
leaves the choice to them. -/
def Chooses (env : Environment) (u : Visit) (selector : Selector) (choice : ChildChoice) : Prop :=
  env.Enters u ∧ choice = .all ∧ selector = .taken ∨ env.Passes u ∧ choice = .insideTags

end Environment

/-! ## Families -/

section

variable {env : Environment} {depth : Nat} {t : Template} {tag : Tag} {cs : List Block} {s s' : Scope}
  {selector selector' : Selector} {choice : ChildChoice} {c : ChildrenRenderer}

/-- A script that goes on with what the children give asks for nothing else. -/
theorem Script.asks_only {S : Services} {q : Request} :
    (children s selector choice).Asks S c q ↔ q = .children s selector choice := by
  simp

theorem IfTag.chooses_branch (h : (branchScript tag s).Asks (env.services depth) c (.children s' selector' choice)) :
    env.Chooses ⟨depth, t, .tag plugin tag cs, s, selector⟩ selector' choice := by
  obtain ⟨e, ha, h | ⟨x, hx, h⟩⟩ := Tag.asks_valueScript.1 h
  · cases h
  · rw [Environment.evaluate_services] at hx
    cases ht : x.truthy with
    | true =>
      rw [ht, if_pos rfl] at h
      cases Script.asks_only.1 h
      exact .inl ⟨.condition ha hx ht, rfl, rfl⟩
    | false =>
      rw [ht, if_neg Bool.false_ne_true] at h
      cases Script.asks_only.1 h
      exact .inr ⟨.condition ha hx ht, rfl⟩

theorem IfTag.chooses (h : (script tag s selector).Asks (env.services depth) c (.children s' selector' choice)) :
    (tag.role = .inside → selector ≠ .taken) ∧
      env.Chooses ⟨depth, t, .tag plugin tag cs, s, selector⟩ selector' choice := by
  unfold script at h
  split at h
  · rename_i hr
    exact ⟨fun hi => absurd (hr.symm.trans hi) nofun, chooses_branch h⟩
  · rename_i hr
    unfold pickScript at h
    split at h
    · exact absurd h Script.asks_done
    · rename_i htold
      refine ⟨fun _ => htold, ?_⟩
      split at h
      · rename_i hn
        cases Script.asks_only.1 h
        exact .inl ⟨.orElse hr (by simpa using hn), rfl, rfl⟩
      · exact chooses_branch h

theorem SwitchTag.chooses_case {x : Value} (hr : tag.role ≠ .opening)
    (h : (caseScript tag s x).Asks (env.services depth) c (.children s' selector' choice)) :
    env.Chooses ⟨depth, t, .tag plugin tag cs, s, .subject x⟩ selector' choice := by
  obtain ⟨e, ha, h | ⟨candidates, hx, h⟩⟩ := Tag.asks_valueScript.1 h
  · cases h
  · rw [Environment.evaluate_services] at hx
    obtain ⟨found, hfound, h⟩ := Script.asks_ofResult.1 h
    have hfound := mapError_eq_ok.1 hfound
    cases found with
    | true =>
      cases Script.asks_only.1 h
      exact .inl ⟨.case hr ha hx hfound, rfl, rfl⟩
    | false =>
      cases Script.asks_only.1 h
      exact .inr ⟨.case hr ha hx hfound, rfl⟩

theorem SwitchTag.chooses (h : (script tag s selector).Asks (env.services depth) c (.children s' selector' choice)) :
    (tag.role = .inside → selector ≠ .taken) ∧
      env.Chooses ⟨depth, t, .tag plugin tag cs, s, selector⟩ selector' choice := by
  by_cases hr : tag.role = .opening
  · refine ⟨fun hi => absurd (hr.symm.trans hi) nofun, ?_⟩
    obtain ⟨e, x, -, -, -, -, rfl⟩ := asks_children_opening hr h
    exact .inr ⟨.switch hr, rfl⟩
  · unfold script at h
    split at h
    · exact absurd ‹_› hr
    unfold pickScript at h
    split at h
    · exact absurd h Script.asks_done
    · rename_i htold
      refine ⟨fun _ => htold, ?_⟩
      split at h
      · rename_i hn
        cases Script.asks_only.1 h
        exact .inl ⟨.default hr (by simpa using hn), rfl, rfl⟩
      · split at h
        · exact chooses_case hr h
        · exact absurd h Script.asks_fail

theorem ForTag.chooses (h : (script tag s selector).Asks (env.services depth) c (.children s' selector' choice)) :
    (tag.role = .inside → selector ≠ .taken) ∧
      env.Chooses ⟨depth, t, .tag plugin tag cs, s, selector⟩ selector' choice := by
  unfold script at h
  split at h
  · rename_i hr
    unfold pickScript at h
    split at h
    · exact absurd h Script.asks_done
    · rename_i htold
      cases Script.asks_only.1 h
      exact ⟨fun _ => htold, .inl ⟨.empty hr, rfl, rfl⟩⟩
  · rename_i hr
    refine ⟨fun hi => absurd hi hr, ?_⟩
    unfold openingScript at h
    split at h
    · rename_i target second iterable ha
      obtain h | ⟨x, hx, h⟩ := Script.asks_value.1 h
      · cases h
      · rw [Environment.evaluate_services] at hx
        obtain ⟨items, hitems, h⟩ := Script.asks_ofResult.1 h
        have hitems := mapError_eq_ok.1 hitems
        cases items with
        | nil =>
          cases Script.asks_only.1 h
          exact .inr ⟨.loop hr ha hx hitems, rfl⟩
        | cons item items =>
          obtain ⟨_, -, index, b, -, hq⟩ := asks_roundsScript h
          cases hq
          exact .inl ⟨.rounds hr ha hx hitems nofun, rfl, rfl⟩
    · exact absurd h Script.asks_fail

/-- What a visited tag asks for: the children that it has chosen, or, if it is an include, another template. -/
theorem TagPlugin.Scripted.chooses {p : TagPlugin} {f : Tag → Scope → Selector → Script} (hf : p.Scripted f)
    (hp : p.insideNames ≠ []) (t : Template) (cs : List Block)
    (h : (f tag s selector).Asks (env.services depth) c (.children s' selector' choice)) :
    (tag.role = .inside → selector ≠ .taken) ∧
      env.Chooses ⟨depth, t, .tag p tag cs, s, selector⟩ selector' choice := by
  cases hf with
  | ifTag => exact IfTag.chooses h
  | switchTag => exact SwitchTag.chooses h
  | forTag => exact ForTag.chooses h
  | withTag => exact absurd rfl hp
  | applyTag => exact absurd rfl hp
  | includeTag => exact absurd rfl hp

/-- A tag without inside tags takes its branch. -/
theorem TagPlugin.Scripted.enters {p : TagPlugin} {f : Tag → Scope → Selector → Script} (hf : p.Scripted f)
    (hp : p.insideNames = []) : env.Enters ⟨depth, t, .tag p tag cs, s, selector⟩ := by
  cases hf with
  | ifTag => cases hp
  | switchTag => cases hp
  | forTag => cases hp
  | withTag => exact .withTag
  | applyTag => exact .applyTag
  | includeTag => exact .includeTag

/-- Only an include asks for another template: for that which its expression names, and in the name of the template that
it stands in. -/
theorem TagPlugin.Scripted.includes {p : TagPlugin} {f : Tag → Scope → Selector → Script} (hf : p.Scripted f)
    {id base : String} {S : Services} (h : (f tag s selector).Asks S c (.template id s' base)) :
    p = IncludeTag.plugin ∧ base = tag.template ∧
      ∃ e x, tag.args = .expr e ∧ S.evaluate e s = .ok x ∧ x.outputText = .ok id := by
  cases hf with
  | ifTag =>
    rcases IfTag.asks_script h with h | h
    · cases h
    · obtain ⟨e, -, h | h | h⟩ := IfTag.asks_branchScript h <;> cases h
  | switchTag =>
    by_cases hr : tag.role = .opening
    · obtain ⟨e, -, h | ⟨v, -, h⟩⟩ := SwitchTag.asks_opening hr h <;> cases h
    · rcases SwitchTag.asks_inside hr h with h | ⟨v, -, h⟩
      · cases h
      · obtain ⟨e, -, h | h | h⟩ := SwitchTag.asks_caseScript h <;> cases h
  | forTag =>
    rcases ForTag.asks_script h with h | h
    · cases h
    · obtain ⟨target, second, iterable, -, h | h | ⟨v, items, -, -, item, -, index, b, -, h⟩⟩ :=
        ForTag.asks_openingScript h <;> cases h
  | withTag => obtain ⟨target, e, -, h | ⟨v, -, h⟩⟩ := WithTag.asks_script h <;> cases h
  | applyTag => rcases ApplyTag.asks_script h with h | ⟨e, body, -, h⟩ <;> cases h
  | includeTag =>
    obtain ⟨e, he, h | ⟨x, hx, h⟩⟩ := Tag.asks_valueScript.1 h
    · cases h
    · obtain ⟨id', hid, h⟩ := Script.asks_ofResult.1 h
      obtain h | ⟨-, text, -, h⟩ := Script.asks_template.1 h
      · cases h
        exact ⟨rfl, rfl, e, x, he, hx, mapError_eq_ok.1 hid⟩
      · exact absurd h Script.asks_done

end

namespace Environment

/-- An include that is executed in the render of a template in a scope: a visited tag that stands in its template and asks
for the template that its expression names. -/
def ExecutedInclude (env : Environment) (t : Template) (s : Scope) (v : Visit) (id : String) : Prop :=
  env.Visits t s v ∧ v.block.Occurs v.template.blocks ∧ ∃ tag cs e x, v.block = .tag IncludeTag.plugin tag cs ∧
    tag.args = .expr e ∧ env.evaluate e v.scope = .ok x ∧ x.outputText = .ok id

/-! ## The way to a visit -/

theorem exists_tag_of_isInside {b : Block} (h : b.isInside = true) :
    ∃ p tag cs, b = .tag p tag cs ∧ tag.role = .inside := by
  cases b with
  | tag p tag cs => exact ⟨p, tag, cs, rfl, by simpa [Block.isInside] using h⟩
  | text | output | bare => cases h

section

variable {env : Environment} (hreg : env.registry.Reachable) (hb : env.registry.OnlyBuiltin) {t : Template} {s : Scope}
  (ht : env.Reads t) {u w : Visit}

include hreg hb ht

/-- A visited tag that asks for a template is an include, and does so in the name of its own template. -/
theorem executedInclude_of_asks (hu : env.Visits t s u) {id base : String} {s' : Scope}
    (h : env.AsksFor u (.template id s' base)) : env.ExecutedInclude t s u id ∧ base = u.template.name := by
  cases h with
  | mk hf hasks =>
    rename_i depth t' p tag cs s₁ selector f
    obtain ⟨name, ts, hname, hd⟩ := hu.derived ht
    obtain ⟨us, role, htag⟩ := hd.tagTokens
    obtain ⟨rfl, hbase, e, x, he, hx, hid⟩ := (hf.scripted (mem_builtinTags_of_visits hreg hb ht hu rfl)).includes hasks
    rw [evaluate_services] at hx
    exact ⟨⟨hu, (hu.occurs ht).2, tag, cs, e, x, rfl, he, hx, hid⟩, hbase.trans (htag.template.trans hname.symm)⟩

/-- Each visit leads to the next one by what its tag has chosen. -/
theorem selects_of_next (hu : env.Visits t s u) (hn : env.Next u w) : env.Selects u w := by
  have hw := hu.next hn
  cases id hn with
  | child hask hmem hc =>
    rename_i depth t' p tag cs s₁ s' selector selector' choice b
    cases hask with
    | mk hf hasks =>
      have hscripted := hf.scripted (mem_builtinTags_of_visits hreg hb ht hu rfl)
      refine ⟨fun hi => ?_, fun hi => ?_, fun hi => ?_⟩
      · obtain ⟨_, _, _, hblock, hr⟩ := exists_tag_of_isInside hi
        cases hblock
        have hroute := hu.route ht rfl
        rw [hr] at hroute
        exact (hscripted.chooses (insideNames_ne_nil hreg hroute) t' cs hasks).1 hr
      · by_cases hp : p.insideNames = []
        · exact hscripted.enters hp
        · obtain ⟨-, ⟨henters, -⟩ | ⟨-, hchoice⟩⟩ := hscripted.chooses hp t' cs hasks
          · exact henters
          · exact absurd ((hc hchoice).symm.trans hi) nofun
      · -- the inside tag is of the family of the tag that holds it
        obtain ⟨q, inner, ds, hblock, hr⟩ := exists_tag_of_isInside hi
        dsimp only at hblock
        subst hblock
        obtain ⟨front, rest, rfl⟩ := List.append_of_mem hmem
        obtain ⟨name, ts, -, hd⟩ := hu.derived ht
        obtain ⟨-, hfamily, -⟩ := hd.tagHolds.of_inside hr
        have hroute := hw.route ht rfl
        obtain rfl : q = p :=
          hreg.eq_of_family (hreg.route hroute).1 (hreg.route (hu.route ht rfl)).1 hfamily
        rw [hr] at hroute
        obtain ⟨-, ⟨-, -, htaken⟩ | ⟨hpasses, -⟩⟩ :=
          hscripted.chooses (insideNames_ne_nil hreg hroute) t' (front ++ .tag q inner ds :: rest) hasks
        · exact .inl htaken
        · exact .inr hpasses
  | included hask hload hmem =>
    rename_i depth t' t'' b b' s₁ s' selector id base
    obtain ⟨⟨-, -, tag, cs, -, -, hblock, -⟩, -⟩ := executedInclude_of_asks hreg hb ht hu hask
    dsimp only at hblock
    subst hblock
    refine ⟨fun hi => ?_, fun _ => .includeTag, fun hi => ?_⟩
    · have hroute := hu.route ht rfl
      rw [show tag.role = .inside by simpa [Block.isInside] using hi] at hroute
      exact absurd rfl (insideNames_ne_nil hreg hroute)
    · obtain ⟨p, inner, ds, hv, hr⟩ := exists_tag_of_isInside hi
      exact absurd hr ((reads_of_readLoaded hload).not_inside hmem hv)

end

end Environment

end TemplateEngine

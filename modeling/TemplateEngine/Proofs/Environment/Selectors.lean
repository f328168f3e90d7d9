/-
Selectors stay within a family. An inside tag is told its selector by a tag of its own family, along the way from the tag
that opened the block: that a branch was taken, that none was, or the value of the switch that it belongs to. All other
blocks have one text for all selectors.
-/
import TemplateEngine.Proofs.Environment.Visits
import TemplateEngine.Proofs.Expr.Failures
import TemplateEngine.Proofs.Template.TreeShape
import TemplateEngine.Proofs.Value.Printer

namespace TemplateEngine

open Template

/-! ## Nodes without a selector -/

/-- A node that is a text, an output or a tag that opens. -/
def NodeContent.Opens : NodeContent → Prop
  | .text _ => True
  | .output _ _ => True
  | .tag _ t => t.role = .opening
  | _ => False

theorem NodeContent.Opens.isInside {b : Block} (h : b.content.Opens) : b.isInside = false := by
  cases b with
  | tag p tag cs =>
    rw [Block.isInside, show tag.role = .opening from h]
    rfl
  | text s => rfl
  | output source line => rfl
  | bare => rfl

/-! ## Tags outside of a switch -/

/-- The failure of a tag that stands outside of a switch. -/
def outsideSwitchError (l : Location) (m : TagMarkup) (markup : String) : Failure :=
  .evaluation (.tagFault l m (.type (.outsideSwitch markup)))

theorem Value.contains_ne_outsideSwitch (container v : Value) (markup : String) :
    container.contains v ≠ .error (.type (.outsideSwitch markup)) := by
  unfold Value.contains
  intro h
  split at h
  · split at h <;> cases h
  · split at h
    · cases h
    · split at h
      · split at h <;> cases h
      · cases h
  · cases h
  · cases h
  · rcases bind_eq_error.1 h with h | ⟨u, -, h⟩
    · unfold Value.checkKey at h
      split at h <;> cases h
    · cases h
  · cases h
  · cases h

/-- Only a tag of the family `switch` that is told neither that a branch was taken nor a value raises that it stands
outside of a switch. -/
theorem TagPlugin.Scripted.of_raises_outsideSwitch {p : TagPlugin} {f : Tag → Scope → Selector → Script} {t : Tag}
    {s : Scope} {selector : Selector} {S : Services} {c : ChildrenRenderer} {markup : String} (h : p.Scripted f)
    (hf : (f t s selector).Raises S c (.fault (.type (.outsideSwitch markup)))) :
    p = SwitchTag.plugin ∧ t.role ≠ .opening ∧ selector ≠ .taken ∧ ∀ v, selector ≠ .subject v := by
  have hwritten {r : Except Fault String} {fault : Fault} (hr : r = .error fault → fault = .value .digitsWritten)
      (h : r = .error fault) (hfault : Failure.fault (.type (.outsideSwitch markup)) = .fault fault) : False := by
    rw [hr h] at hfault
    cases hfault
  cases h with
  | ifTag =>
    obtain ⟨text, h⟩ := IfTag.raises_script hf
    cases h
  | switchTag =>
    rcases SwitchTag.raises_script hf with ⟨text, h⟩ | ⟨candidates, v, fault, hc, h⟩ | ⟨hr, ht, hv, -⟩
    · cases h
    · cases h
      exact absurd hc (Value.contains_ne_outsideSwitch candidates v markup)
    · exact ⟨rfl, hr, ht, hv⟩
  | forTag =>
    rcases ForTag.raises_script hf with ⟨kind, text, h⟩ | ⟨item, fault, hq, h⟩ | ⟨type, h⟩ | ⟨shown, targets, h⟩
    · cases h
    · exact (hwritten Value.quotedForm_eq_error hq h).elim
    · cases h
    · cases h
  | withTag =>
    obtain ⟨text, h⟩ := WithTag.raises_script hf
    cases h
  | applyTag =>
    rcases ApplyTag.raises_script hf with ⟨text, h⟩ | ⟨v, fault, ho, h⟩
    · cases h
    · exact (hwritten Value.outputText_eq_error ho h).elim
  | includeTag =>
    rcases IncludeTag.raises_script hf with ⟨text, h⟩ | ⟨v, fault, ho, h⟩
    · cases h
    · exact (hwritten Value.outputText_eq_error ho h).elim

namespace Environment

/-! ## Inside tags -/

/-- The way of a selector from the visit of a tag to that of an inside tag of its family: each visit on it leads to the
next one, and all of them are of inside tags of the family. -/
inductive HandsDown (env : Environment) (p : TagPlugin) (u : Visit) : Visit → Prop
  | first {v : Visit} {tag : Tag} {cs : List Block} (hn : env.Next u v) (hv : v.block = .tag p tag cs)
      (hr : tag.role = .inside) : HandsDown env p u v
  | later {v w : Visit} {tag : Tag} {cs : List Block} (h : HandsDown env p u v) (hn : env.Next v w)
      (hw : w.block = .tag p tag cs) (hr : tag.role = .inside) : HandsDown env p u w

/-- What an inside tag of a family is told on the way from a tag that opens a block: in a switch that a branch was taken,
or the value of that switch, and else that a branch was taken or that none was. -/
def Tells (env : Environment) (p : TagPlugin) (opening : Tag) (u : Visit) (selector : Selector) : Prop :=
  if p.family = SwitchTag.plugin.family then
    selector = .taken ∨ ∃ e x, opening.args = .expr e ∧ env.evaluate e u.scope = .ok x ∧ selector = .subject x
  else selector = .taken ∨ selector = .pending

/-- The selector at the visit of an inside tag comes from the visit of the tag that opens its block. -/
def ToldWithin (env : Environment) (t : Template) (s : Scope) (p : TagPlugin) (v : Visit) : Prop :=
  ∃ u tag cs, env.Visits t s u ∧ u.block = .tag p tag cs ∧ tag.role = .opening ∧ env.HandsDown p u v ∧
    env.Tells p tag u v.selector

section

variable {env : Environment} {p : TagPlugin} {tag opening : Tag} {cs : List Block} {t : Template} {s s' : Scope}
  {u v : Visit} {selector : Selector} {choice : ChildChoice}

/-- What a tag that opens a block tells its children, if its family has inside tags. -/
theorem tells_of_opening (hb : p ∈ builtinTags) (hu : u.block = .tag p tag cs) (hr : tag.role = .opening)
    (hp : p.insideNames ≠ []) (h : env.AsksFor u (.children s' selector choice)) : env.Tells p tag u selector := by
  unfold Tells
  cases h with
  | mk hf h =>
    cases hu
    cases hf.scripted hb with
    | ifTag =>
      rw [if_neg (by decide)]
      exact (IfTag.asks_children h).2.imp And.left And.left
    | switchTag =>
      rw [if_pos rfl]
      obtain ⟨e, x, he, hx, -, hselector, -⟩ := SwitchTag.asks_children_opening hr h
      rw [evaluate_services] at hx
      exact .inr ⟨e, x, he, hx, hselector⟩
    | forTag =>
      rw [if_neg (by decide)]
      exact (ForTag.asks_children h).imp And.left fun h => h.2.1
    | withTag => exact absurd rfl hp
    | applyTag => exact absurd rfl hp
    | includeTag => exact absurd rfl hp

/-- An inside tag tells its children nothing but what it may be told itself. -/
theorem tells_of_inside (hb : p ∈ builtinTags) (hv : v.block = .tag p tag cs) (hr : tag.role = .inside)
    (hp : p.insideNames ≠ []) (h : env.AsksFor v (.children s' selector choice))
    (hold : env.Tells p opening u v.selector) : env.Tells p opening u selector := by
  unfold Tells at hold ⊢
  cases h with
  | mk hf h =>
    cases hv
    cases hf.scripted hb with
    | ifTag =>
      rw [if_neg (by decide)]
      exact (IfTag.asks_children h).2.imp And.left And.left
    | switchTag =>
      rw [if_pos rfl] at hold ⊢
      rcases (SwitchTag.asks_children_inside (by rw [hr]; nofun) h).2 with ⟨htaken, -⟩ | ⟨x, htold, hselector, -⟩
      · exact .inl htaken
      · rcases hold with hold | ⟨e, y, he, hy, hold⟩
        · exact absurd (htold.symm.trans hold) nofun
        · exact .inr ⟨e, y, he, hy, hselector.trans (htold.symm.trans hold)⟩
    | forTag =>
      rw [if_neg (by decide)]
      exact (ForTag.asks_children h).imp And.left fun h => h.2.1
    | withTag => exact absurd rfl hp
    | applyTag => exact absurd rfl hp
    | includeTag => exact absurd rfl hp

/-- An inside tag does not stand in the content of a template. -/
theorem Reads.not_inside (ht : env.Reads t) (hmem : v.block ∈ t.blocks) (hv : v.block = .tag p tag cs) :
    tag.role ≠ .inside := by
  obtain ⟨text, name, hread⟩ := ht
  have hstands := (read_eq_ok.1 hread).2.stands _ hmem
  rw [hv] at hstands
  rw [hstands.1]
  nofun

variable (hreg : env.registry.Reachable) (hb : env.registry.OnlyBuiltin) (ht : env.Reads t)

include hreg

/-- A family without inside tags has none in a template that was read. -/
theorem insideNames_ne_nil (h : env.registry.route? tag.name = some ⟨p, .inside⟩) : p.insideNames ≠ [] := by
  have hd := (hreg.route h).2
  intro hnil
  simp [TagRegistry.declarations, hnil] at hd

include hb ht

theorem mem_builtinTags_of_visits (h : env.Visits t s v) (hv : v.block = .tag p tag cs) : p ∈ builtinTags :=
  hb p (hreg.route (h.route ht hv)).1

/-- Each visited inside tag is told its selector within its family. By induction on the way to the visit: the tag that
holds an inside tag is of its family, and has opened the block or is an inside tag itself. -/
theorem toldWithin_of_visits (h : env.Visits t s v) (hv : v.block = .tag p tag cs) (hr : tag.role = .inside) :
    env.ToldWithin t s p v := by
  induction h generalizing p tag cs with
  | root hmem => exact absurd hr (ht.not_inside hmem hv)
  | next hu hn ih =>
    have hroute := (hu.next hn).route ht hv
    have hp := insideNames_ne_nil hreg (hr ▸ hroute)
    have hbuiltin := mem_builtinTags_of_visits hreg hb ht (hu.next hn) hv
    cases id hn with
    | included hask hload hmem => exact absurd hr ((reads_of_readLoaded hload).not_inside hmem hv)
    | child hask hmem hc =>
      rename_i depth t' q upper ds s₁ s' selector selector' choice b
      obtain ⟨front, rest, rfl⟩ := List.append_of_mem hmem
      obtain ⟨name, ts, -, hd⟩ := hu.derived ht
      dsimp only at hv hd
      rw [hv] at hd
      obtain ⟨-, hfamily, hrole, -⟩ := hd.tagHolds.of_inside hr
      have hpq : p = q :=
        hreg.eq_of_family (hreg.route hroute).1 (hreg.route (hu.route ht rfl)).1 hfamily
      subst hpq
      rcases hrole with ⟨hopening, -⟩ | hinside
      · exact ⟨_, upper, _, hu, rfl, hopening, .first hn hv hr, tells_of_opening hbuiltin rfl hopening hp hask⟩
      · obtain ⟨w, opening, es, hw, hblock, hopening, hdown, htells⟩ := ih rfl hinside
        exact ⟨w, opening, es, hw, hblock, hopening, .later hdown hn hv hr,
          tells_of_inside hbuiltin rfl hinside hp hask htells⟩

/-- No visited tag finds itself outside of a switch. -/
theorem not_outsideSwitch {depth : Nat} {t' : Template} {f : Tag → Scope → Selector → Script} {markup : String}
    {S : Services} {c : ChildrenRenderer} (h : env.Visits t s ⟨depth, t', .tag p tag cs, s', selector⟩) (hf : p.Scripted f) :
    ¬ (f tag s' selector).Raises S c (.fault (.type (.outsideSwitch markup))) := by
  intro hraises
  obtain ⟨rfl, hr, htaken, hsubject⟩ := hf.of_raises_outsideSwitch hraises
  have hrole : tag.role = .inside := by
    obtain ⟨name, ts, -, hd⟩ := h.derived ht
    cases hd.tagHolds with
    | singular hopening hp => exact absurd hopening hr
    | branch hrole hbody hrest hfinal => exact hrole.resolve_left fun h => hr h.1
  obtain ⟨u, opening, ds, -, -, -, -, htells⟩ := toldWithin_of_visits hreg hb ht h rfl hrole
  rw [Tells, if_pos rfl] at htells
  rcases htells with htells | ⟨e, x, -, -, htells⟩
  · exact htaken htells
  · exact hsubject x htells

/-- A render that fails as a tag stands outside of a switch fails as a callable of the embedding program or the loader
does. -/
theorem of_outsideSwitch {calls : List LoaderCall} {l : Location} {m : TagMarkup}
    {markup : String} {failure : Failure} (hfailure : failure = outsideSwitchError l m markup)
    (h : (env.renderTemplate t s).resultAfter calls = .error failure) :
    (∃ name args, env.host.call name args = .error failure) ∨ ∃ id base, env.loader.load id base = .error failure := by
  obtain ⟨v, hv, hfails⟩ := exists_fails ht h
  cases hfails with
  | output hout =>
    rw [hfailure] at hout
    rcases outputText_eq_error hout with ⟨e, he⟩ | ⟨x, e, -, -, he⟩ | ⟨f, he⟩ <;> cases he
  | unscripted hno hrun =>
    obtain ⟨f, hf⟩ := exists_script (mem_builtinTags_of_visits hreg hb ht hv rfl)
    exact absurd (.builtin hf) (hno f)
  | raised hf hraises =>
    have hf := hf.scripted (mem_builtinTags_of_visits hreg hb ht hv rfl)
    rcases hf.raises hraises with ⟨f, rfl⟩ | ⟨-, ⟨type, rfl⟩ | ⟨shown, targets, rfl⟩⟩
    · cases hfailure
      exact absurd hraises (not_outsideSwitch hreg hb ht hv hf)
    · cases hfailure
    · cases hfailure
  | value hask he =>
    have hmay := Evaluator.mayFail_eval _ he
    cases hmay with
    | plain hplain =>
      cases hfailure
      cases hplain
    | fault hf =>
      cases hfailure
      exact absurd rfl (hf _)
    | host hhost hf =>
      rename_i name args
      rw [Failure.atTag_of_ne hf]
      exact .inl ⟨name, args, hhost⟩
  | unloaded hask hl =>
    rename_i failure
    have hfault (f : Fault) : failure ≠ .fault f := by
      rintro rfl
      obtain ⟨text, -, hparse⟩ := readLoaded_eq_fault hl
      exact explains_of_onlyBuiltin hreg hb _ _ f hparse
    rw [Failure.atTag_of_ne hfault] at hfailure ⊢
    rw [hfailure] at hl ⊢
    exact .inr ⟨_, _, readLoaded_eq_evaluation hl⟩
  | tooDeep hask => cases hfailure

end

/-! ## Other blocks -/

/-- Whatever it is told, such a node has one text. -/
theorem renderBlock_node {env : Environment} (hreg : env.registry.Reachable) (hb : env.registry.OnlyBuiltin)
    {t : Template} (ht : env.Reads t) {n : Nat} {c : NodeContent} (hn : (Tree.ofTemplate t).content? n = some c)
    (hc : c.Opens) (S : Services) (name : String) (s : Scope) (selector selector' : Selector) :
    renderBlock S name ((Tree.ofTemplate t).block n) s selector =
      renderBlock S name ((Tree.ofTemplate t).block n) s selector' := by
  have hzero : n ≠ 0 := by
    rintro rfl
    cases hn
    exact hc
  obtain ⟨q, front, b, rest, rfl, hrow, hholds, -⟩ := Tree.exists_row hzero hn
  rw [hholds.block_eq]
  obtain ⟨text, name', hread⟩ := ht
  have hocc : b.Occurs t.blocks := hrow.occurs (List.mem_append_right _ (List.mem_cons_self ..))
  have hinside : b.isInside = false := hc.isInside
  obtain ⟨us, -, hconstruct⟩ := ((read_eq_ok.1 hread).2.derived hocc).of_not_inside hinside
  exact renderBlock_selector hreg hb (hconstruct.stands b (List.mem_singleton_self b)) selector selector'

/-- With the built-in tags, each inside tag that is visited in the render of a template, in whatever scope and also in what
is included, is told its selector by tags of its own family, from the one that opened its block on: in a switch that a
branch was taken or the value of that switch, and else that a branch was taken or that none was. So no render fails as a
tag stands outside of a switch, unless a callable of the embedding program or the loader fails in that very way; and each
node that is a text, an output or a tag that opens has one text for all selectors. -/
theorem selectors_within_families (env : Environment) (hreg : env.registry.Reachable) (hb : env.registry.OnlyBuiltin) :
    (∀ t s v p tag cs, env.Reads t → env.Visits t s v → v.block = .tag p tag cs → tag.role = .inside →
      env.ToldWithin t s p v) ∧
    (∀ l m markup calls context, ((∃ source name, (env.renderString source context name).resultAfter calls =
        .error (outsideSwitchError l m markup)) ∨
        ∃ id, (env.render id context).resultAfter calls = .error (outsideSwitchError l m markup)) →
      (∃ name args, env.host.call name args = .error (outsideSwitchError l m markup)) ∨
        ∃ id base, env.loader.load id base = .error (outsideSwitchError l m markup)) ∧
    (∀ t n c, env.Reads t → (Tree.ofTemplate t).content? n = some c → c.Opens → ∀ S name s selector selector',
      renderBlock S name ((Tree.ofTemplate t).block n) s selector =
        renderBlock S name ((Tree.ofTemplate t).block n) s selector') := by
  refine ⟨fun t s v p tag cs ht h hv hr => toldWithin_of_visits hreg hb ht h hv hr, ?_,
    fun t n c ht hn hc S name s => renderBlock_node hreg hb ht hn hc S name s⟩
  rintro l m markup calls context (⟨source, name, h⟩ | ⟨id, h⟩)
  · rcases renderString_eq_error h with ⟨e, he⟩ | ⟨f, hf⟩ | ⟨t, s, ht, -, calls', h⟩
    · cases he
    · cases hf
    · exact of_outsideSwitch hreg hb (reads_of_parse ht) rfl h
  · rcases render_eq_error h with h | ⟨f, hf⟩ | ⟨t, s, ht, -, calls', h⟩
    · exact .inr ⟨id, none, readLoaded_eq_evaluation h⟩
    · cases hf
    · exact of_outsideSwitch hreg hb (reads_of_readLoaded ht) rfl h

/-- The text `{% switch x %}{% case 1 %}{% if y %}a{% else %}b{% endif %}{% default %}c{% endswitch %}`. -/
def caseText : String :=
  "\x7b% switch x %\x7d\x7b% case 1 %\x7d\x7b% if y %\x7da\x7b% else %\x7db\x7b% endif %\x7d" ++
    "\x7b% default %\x7dc\x7b% endswitch %\x7d"

theorem selectors_within_families_case : ∃ t s v p tag cs, (ofTexts []).parse caseText "t" = .ok t ∧
    (ofTexts []).makeScope (.dict [(.str "x", .int 1)]) = .ok s ∧ (ofTexts []).Visits t s v ∧
    v.block = .tag p tag cs ∧ tag.name = "case" ∧ v.selector = .subject (.int 1) ∧ (ofTexts []).ToldWithin t s p v := by
  let mark (word : String) (role : TagRole) (source : String) (args : TagArgs) : Tag :=
    ⟨word, role, source, args, 1, "t"⟩
  let orElse : Block := .tag IfTag.plugin (mark "else" .inside "" .none) [.text "b"]
  let chain : Block := .tag IfTag.plugin (mark "if" .opening "y" (.expr (.name "y"))) [.text "a", orElse]
  let default : Block := .tag SwitchTag.plugin (mark "default" .inside "" .none) [.text "c"]
  let case : Tag := mark "case" .inside "1" (.expr (.list [.literal (.int 1)]))
  let switch : Tag := mark "switch" .opening "x" (.expr (.name "x"))
  let held : List Block := [.tag SwitchTag.plugin case [chain, default]]
  let t : Template := ⟨"t", [.tag SwitchTag.plugin switch held]⟩
  have hparse : (ofTexts []).parse caseText "t" = .ok t := by with_unfolding_all rfl
  obtain ⟨s, hs⟩ : ∃ s, (ofTexts []).makeScope (.dict [(.str "x", .int 1)]) = .ok s := ⟨_, rfl⟩
  have hvalue : ((ofTexts []).services (ofTexts []).includeDepth).evaluate (.name "x") s = .ok (.int 1) := by
    cases hs
    with_unfolding_all rfl
  have hask : (ofTexts []).AsksFor ⟨(ofTexts []).includeDepth, t, .tag SwitchTag.plugin switch held, s, .absent⟩
      (.children s (.subject (.int 1)) .insideTags) := by
    refine .mk (.builtin .switchTag) ?_
    show (switch.valueScript s fun v => .children s (.subject v) .insideTags).Asks _ _ _
    exact Tag.asks_valueScript.2 ⟨_, rfl, .inr ⟨_, hvalue, Script.asks_children.2 (.inl rfl)⟩⟩
  have hvisit := Visits.next (.root (List.mem_singleton_self _)) (.child hask (List.mem_singleton_self _) fun _ => rfl)
  have htold := (selectors_within_families (ofTexts []) reachable_builtinRegistry onlyBuiltin_builtinRegistry).1
    t s _ _ _ _ (reads_of_parse hparse) hvisit rfl rfl
  exact ⟨t, s, _, _, _, _, hparse, hs, hvisit, rfl, rfl, rfl, htold⟩

end Environment

end TemplateEngine

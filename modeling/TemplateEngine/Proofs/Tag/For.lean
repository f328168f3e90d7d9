/-
The meaning of loops. What follows the tag is rendered once for each item, in order and in a scope of its own, and where
there are no items what follows an `empty` tag is; that tag is nested into the block and thus met in each round, but it
is silent there.
-/
import TemplateEngine.Environment.Render
import TemplateEngine.Proofs.Eval
import TemplateEngine.Proofs.Tag.Branches

namespace TemplateEngine.ForTag

open Template

/-! ## Loops that have been read -/

/-- A loop: its tag with the targets and the expression of the items, what follows it, and the `empty` tag if there is
one. -/
structure Loop where
  tag : Tag
  target : String
  second : Option String
  iterable : Expr
  body : List Block
  orElse : Option Branch

/-- A branch is an `empty` tag of the family, and a row of constructs follows it. -/
structure EmptyRead (registry : TagRegistry) (name : String) (c : Branch) : Prop where
  plugin : c.plugin = plugin
  tag_name : c.tag.name = "empty"
  tag_role : c.tag.role = .inside
  body : ∃ ts, Content registry name ts c.body

/-- A block that has been read as a loop: the signature of its tag has the targets and the source of the items. -/
structure Loop.Read (registry : TagRegistry) (name : String) (block : Block) (l : Loop) : Prop where
  nested : [block] = nest (⟨plugin, l.tag, l.body⟩ :: l.orElse.toList)
  tag_name : l.tag.name = "for"
  tag_role : l.tag.role = .opening
  args : l.tag.args = .loop l.target l.second l.iterable
  shape : ∃ source, loopShape? l.tag.signature = some (l.target, l.second, source) ∧ Expr.read source = .ok l.iterable
  body : ∃ ts, Content registry name ts l.body
  final : ∀ c ∈ l.orElse, EmptyRead registry name c

/-- A row of constructs follows the tag of the loop and the `empty` tag. -/
theorem Loop.Read.bodies {registry : TagRegistry} {name : String} {block : Block} {l : Loop}
    (h : l.Read registry name block) :
    ∀ bs ∈ l.body :: l.orElse.toList.map Branch.body, ∃ ts, Content registry name ts bs := by
  intro bs hbs
  rcases List.mem_cons.1 hbs with rfl | hbs
  · exact h.body
  · obtain ⟨c, hc, rfl⟩ := List.mem_map.1 hbs
    exact (h.final c (Option.mem_toList.1 hc)).body

section

variable {registry : TagRegistry} {name : String}

theorem readArgs_eq_ok {word signature : String} {args : TagArgs} (h : readArgs word .opening signature = .ok args) :
    ∃ target second iterable, args = .loop target second iterable ∧
      ∃ source, loopShape? signature = some (target, second, source) ∧ Expr.read source = .ok iterable := by
  rw [readArgs, if_neg (by decide)] at h
  cases hs : loopShape? signature with
  | none =>
    rw [hs] at h
    cases h
  | some shape =>
    obtain ⟨target, second, source⟩ := shape
    rw [hs] at h
    obtain ⟨e, he, h⟩ := bind_eq_ok.1 h
    cases h
    exact ⟨target, second, e, rfl, source, rfl, mapError_eq_ok.1 he⟩

/-- A block of the family is a loop. -/
theorem exists_loop (hreg : registry.Reachable) {block : Block} {t : Tag} {body : List Block}
    {branches : List Branch} (h : Branched registry name plugin block ⟨plugin, t, body⟩ branches) :
    ∃ l : Loop, l.tag = t ∧ l.Read registry name block := by
  obtain ⟨target, second, iterable, hargs, hshape⟩ := readArgs_eq_ok (show readArgs t.name _ _ = _ from h.opening.args)
  have hempty : ∀ b ∈ branches, b.tag.name = "empty" := fun b hb =>
    List.mem_singleton.1 ((h.inside b hb).mem_insideNames hreg)
  -- `empty` is final, so that there is no other branch
  have hfront : branches.dropLast = [] := by
    refine List.eq_nil_iff_forall_not_mem.2 fun b hb => h.final b hb ?_
    rw [hempty b (List.dropLast_subset _ hb)]
    decide
  obtain ⟨orElse, rfl⟩ : ∃ orElse : Option Branch, branches = orElse.toList := by
    rcases branches.eq_nil_or_concat' with rfl | ⟨front, last, rfl⟩
    · exact ⟨none, rfl⟩
    · rw [List.dropLast_concat] at hfront
      exact ⟨some last, by rw [hfront]; rfl⟩
  refine ⟨⟨t, target, second, iterable, body, orElse⟩, rfl, h.nested, List.mem_singleton.1 (h.opening.mem_names hreg),
    h.opening.tag_role, hargs, hshape, h.opening.body, fun c hc => ?_⟩
  have hc := Option.mem_toList.2 hc
  exact ⟨(h.inside c hc).plugin, hempty c hc, (h.inside c hc).tag_role, (h.inside c hc).body⟩

end

/-! ## Items -/

/-- The items of a value: `none` has none, a mapping has its keys, or its entries where there are two targets, and a
list or tuple has its own. No other value has items. -/
inductive Items : (pairs : Bool) → Value → List Value → Prop
  | none {pairs : Bool} : Items pairs .none []
  | keys {entries : List (Value × Value)} : Items false (.dict entries) (entries.map (·.1))
  | entries {entries : List (Value × Value)} : Items true (.dict entries) (entries.map fun e => .tuple [e.1, e.2])
  | list {pairs : Bool} {items : List Value} : Items pairs (.list items) items
  | tuple {pairs : Bool} {items : List Value} : Items pairs (.tuple items) items

theorem collect_of_items {pairs : Bool} {v : Value} {items : List Value} (h : Items pairs v items) :
    collect v pairs = .ok items := by
  cases h <;> rfl

theorem collect_of_no_items {pairs : Bool} {v : Value} (h : ∀ items, ¬ Items pairs v items) :
    collect v pairs = .error (.iteration v.typeName) := by
  unfold collect
  split
  · exact absurd .none (h [])
  · rename_i entries
    cases pairs with
    | false => exact absurd .keys (h _)
    | true => exact absurd .entries (h _)
  · exact absurd .list (h _)
  · exact absurd .tuple (h _)
  · rfl

/-! ## Rounds -/

/-- What the targets are bound to in the round of an item: to the item, or, where there are two targets, to the two
values that it consists of. The second target wins over the first one. -/
def Loop.parts (l : Loop) (item : Value) : Option Bindings :=
  match l.second with
  | none => some [(l.target, item)]
  | some second =>
    match item.items? with
    | some [a, b] => some [(second, b), (l.target, a)]
    | _ => none

/-- The scope of the round `i` of `length` rounds. -/
def Loop.scope (l : Loop) (s : Scope) (length i : Nat) (item : Value) : Except Failure Scope := do
  let b ← bind l.target l.second item
  return s.child (b.insert "loop" (.loop i length))

/-- The state of the loop as expressions read it in the round `i` of `length` rounds. -/
structure LoopState (env : Environment) (s : Scope) (length i : Nat) : Prop where
  index0 : env.evaluate (.member (.name "loop") "index0") s = .ok (.int i)
  index : env.evaluate (.member (.name "loop") "index") s = .ok (.int (i + 1))
  first : env.evaluate (.member (.name "loop") "first") s = .ok (.bool (i == 0))
  last : env.evaluate (.member (.name "loop") "last") s = .ok (.bool (i + 1 == length))
  length : env.evaluate (.member (.name "loop") "length") s = .ok (.int length)

/-- In a round the name `loop` means the state of the loop, whatever the targets are called, the targets mean their
parts of the item, and all other names mean what they mean outside. -/
structure RoundScope (l : Loop) (s : Scope) (length i : Nat) (parts : Bindings) (s' : Scope) : Prop where
  child : ∃ b, s' = s.child b
  resolve : ∀ n, s'.resolve n = (Bindings.value? (("loop", .loop i length) :: parts) n).or (s.resolve n)
  state : ∀ env, LoopState env s' length i

/-- An item that does not consist of two values is an error at a loop with two targets, and shown in it, unless going
through it fails or it cannot be shown. -/
structure RoundError (name : String) (l : Loop) (item : Value) (e : Failure) : Prop where
  evaluation : ∃ error, e.atTag name l.tag = .evaluation error
  shown : ∀ shown, (∀ m c text, item ≠ .faulty m c text) → item.quotedForm = .ok shown →
    e = .evaluation (.unpacking shown (l.target :: l.second.toList))

section

variable {name : String} {l : Loop} {s : Scope} {length i : Nat} {item : Value}

theorem items_eq_ok {v : Value} {items : List Value} : v.items = .ok items ↔ v.items? = some items := by
  unfold Value.items
  cases hi : v.items? with
  | some items' => simp
  | none => split <;> simp_all

/-- Only of a value that cannot be read does going through it fail with a fault of another kind. -/
theorem eq_faulty_of_items {v : Value} {kind : ForeignKind} {text : String}
    (h : v.items = .error (.foreign kind text)) : ∃ m c, v = .faulty m c text := by
  unfold Value.items at h
  split at h
  · cases h
  · rename_i m c text' hi
    cases h
    exact ⟨m, c, rfl⟩
  · cases h

theorem bind_of_parts {parts : Bindings} (h : l.parts item = some parts) :
    ∃ b, bind l.target l.second item = .ok b ∧ ∀ n, b.value? n = parts.value? n := by
  unfold Loop.parts at h
  cases hl : l.second with
  | none =>
    rw [hl] at h
    cases h
    exact ⟨_, rfl, fun n => rfl⟩
  | some second =>
    rw [hl] at h
    dsimp only at h
    split at h
    · rename_i a b hitems
      cases h
      have hbind : bind l.target (some second) item = .ok (Bindings.insert second b [(l.target, a)]) := by
        simp only [bind, Value.items, hitems]
      refine ⟨_, hbind, fun n => ?_⟩
      rw [Bindings.value?_insert, Bindings.value?_cons second]
    · cases h

/-- An item is shown in the error, or fails to be. -/
theorem roundError_shown (name : String) (item : Value) {second : String} (hl : l.second = some second) :
    ∃ e, (do let shown ← liftFault item.quotedForm
             .error (.evaluation (.unpacking shown [l.target, second])) : Except Failure Bindings) = .error e ∧
      RoundError name l item e := by
  cases hq : item.quotedForm with
  | ok text =>
    refine ⟨_, rfl, ⟨_, rfl⟩, fun shown _ h => ?_⟩
    cases hq.symm.trans h
    rw [hl]
    rfl
  | error f => exact ⟨_, rfl, ⟨_, rfl⟩, fun shown _ h => nomatch hq.symm.trans h⟩

theorem bind_of_no_parts (h : l.parts item = none) :
    ∃ e, bind l.target l.second item = .error e ∧ RoundError name l item e := by
  unfold Loop.parts at h
  cases hl : l.second with
  | none =>
    rw [hl] at h
    cases h
  | some second =>
    rw [hl] at h
    dsimp only at h
    unfold bind
    dsimp only
    split
    · rename_i a b hitems
      rw [items_eq_ok.1 hitems] at h
      cases h
    · rename_i kind text hitems
      obtain ⟨m, c, rfl⟩ := eq_faulty_of_items hitems
      exact ⟨_, rfl, ⟨_, rfl⟩, fun _ hne _ => absurd rfl (hne m c text)⟩
    · exact roundError_shown name item hl

theorem loopState_of_resolve (env : Environment) (h : s.resolve "loop" = some (.loop i length)) :
    LoopState env s length i := by
  have hread (n : String) : env.evaluate (.member (.name "loop") n) s =
      (⟨env.host, env.undefined⟩ : Evaluator).memberOf (.loop i length) n := by
    rw [Environment.evaluate, Evaluator.eval, Evaluator.eval, Evaluator.nameValue, h]
    rfl
  have hne : Value.loop i length ≠ .none := by
    rintro ⟨⟩
  constructor
  all_goals
    rw [hread, Evaluator.memberOf, Evaluator.passesNone_of_ne hne]
    rfl

theorem scope_of_parts {parts : Bindings} (h : l.parts item = some parts) :
    ∃ s', l.scope s length i item = .ok s' ∧ RoundScope l s length i parts s' := by
  obtain ⟨b, hb, hvalues⟩ := bind_of_parts h
  have hresolve : ∀ n, (s.child (b.insert "loop" (.loop i length))).resolve n =
      (Bindings.value? (("loop", .loop i length) :: parts) n).or (s.resolve n) := by
    intro n
    rw [Scope.resolve_child, Bindings.value?_insert, Bindings.value?_cons, hvalues]
  refine ⟨_, by rw [Loop.scope, hb]; rfl, ⟨_, rfl⟩, hresolve, fun env => loopState_of_resolve env ?_⟩
  rw [hresolve, Bindings.value?_cons_self, Option.some_or]

theorem scope_of_no_parts (h : l.parts item = none) :
    ∃ e, l.scope s length i item = .error e ∧ RoundError name l item e := by
  obtain ⟨e, he, hround⟩ := bind_of_no_parts h
  exact ⟨e, by rw [Loop.scope, he]; rfl, hround⟩

end

/-- The round of an item and its number. -/
def Loop.round (services : Services) (name : String) (s : Scope) (l : Loop) (length : Nat) (p : Value × Nat) :
    Render String := do
  let s' ← Render.ofResult ((l.scope s length p.2 p.1).mapError (Failure.atTag name l.tag))
  renderBlocks services name .all l.body s' .taken

/-! ## Single tags -/

section

variable {services : Services} {name : String} {s : Scope} {selector : Selector} {t : Tag} {cs : List Block}

theorem silent : plugin.Silent := by
  intro t s services children hr
  simp only [plugin, render, hr, pick, pure_bind, Outcome.resolve]

theorem renderBlock_empty (hr : t.role = .inside) :
    renderBlock services name (.tag plugin t cs) s .pending =
      describeTag name t (renderBlocks services name .all cs s .taken) := by
  rw [renderBlock]
  simp only [plugin, render, hr, pick, pure_bind, Outcome.resolve, bind_map_left, bind_pure]

theorem renderBlock_opening {target : String} {second : Option String} {iterable : Expr} (hr : t.role = .opening)
    (ha : t.args = .loop target second iterable) :
    renderBlock services name (.tag plugin t cs) s selector = describeTag name t (do
      let v ← Render.ofResult (services.evaluate iterable s)
      let items ← Render.ofResult ((collect v second.isSome).mapError .evaluation)
      if items.isEmpty then renderBlocks services name .insideTags cs s .pending
      else
        rounds target second s (fun s selector choice => renderBlocks services name choice cs s selector)
          items.length 0 items) := by
  rw [renderBlock]
  simp only [plugin, render, hr, ha, bind_assoc]
  refine congrArg (describeTag name t) (bind_congr fun v => bind_congr fun items => ?_)
  split <;> simp only [bind_map_left, Outcome.resolve, bind_pure]

end

/-! ## All rounds -/

section

variable {registry : TagRegistry} {services : Services} {name : String} {s : Scope} {l : Loop}

/-- The rounds of a tag are those of the loop, one after the other. By induction on the items that are left. -/
theorem describeTag_rounds (hb : ∀ b ∈ l.body, Stands registry b) {children : ChildrenRenderer}
    (hc : ∀ s, children s .taken .all = renderBlocks services name .all l.body s .taken) (length i : Nat)
    (items : List Value) :
    describeTag name l.tag (rounds l.target l.second s children length i items) =
      String.join <$> (items.zipIdx i).mapM (l.round services name s length) := by
  induction items generalizing i with
  | nil =>
    rw [rounds, List.zipIdx_nil, List.mapM_nil, map_pure]
    exact describeTag_of_noFault (noFault_pure "")
  | cons item items ih =>
    rw [rounds, describeTag_ofResult_bind, List.zipIdx_cons, List.mapM_cons, Loop.round, Loop.scope]
    cases hbind : bind l.target l.second item with
    | error e => rfl
    | ok b =>
      have hbody : NoFault (renderBlocks services name .all l.body (s.child (b.insert "loop" (.loop i length))) .taken) :=
        noFault_renderBlocks (ne_bare_of_stands hb)
      have hstep (text : String) : describeTag name l.tag (do
          let rest ← rounds l.target l.second s children length (i + 1) items
          return text ++ rest) =
          (text ++ ·) <$> String.join <$> (items.zipIdx (i + 1)).mapM (l.round services name s length) := by
        rw [← map_eq_pure_bind, describeTag_map, ih]
      rw [mapError_ok, ofResult_ok, pure_bind, hc, describeTag_bind hbody, ok_bind]
      show _ = String.join <$> (do
        let text ← renderBlocks services name .all l.body (s.child (b.insert "loop" (.loop i length))) .taken
        let texts ← (items.zipIdx (i + 1)).mapM (l.round services name s length)
        return text :: texts)
      simp only [hstep, map_eq_pure_bind, bind_assoc, pure_bind, String.join_cons]

/-- A round that fails ends the loop. -/
theorem run_mapM_of_stop {α β : Type} {f : α → Render β} {before after : List α} {a : α} {texts : List β}
    {calls calls' calls'' : List LoaderCall} {e : Failure}
    (hb : (ExceptT.run (before.mapM f)).run calls = (.ok texts, calls'))
    (ha : (ExceptT.run (f a)).run calls' = (.error e, calls'')) :
    (ExceptT.run ((before ++ a :: after).mapM f)).run calls = (.error e, calls'') := by
  rw [List.mapM_append, ExceptT.run_bind, StateT.run_bind, hb, List.mapM_cons]
  show (ExceptT.run (((f a) >>= fun b => _) >>= fun bs => _)).run calls' = _
  rw [bind_assoc, ExceptT.run_bind, StateT.run_bind, ha]
  rfl

end

/-! ## What a loop renders -/

/-- A render is that of a loop. The items are those of the value that the expression has; where there are none, what
follows the `empty` tag is rendered, and else the texts of the rounds are joined. The first round that fails is the last
one, and its failure that of the loop. -/
structure Iterates (services : Services) (name : String) (s : Scope) (l : Loop) (r : Render String) : Prop where
  failed : ∀ e, services.evaluate l.iterable s = .error e → r = throw (e.atTag name l.tag)
  refused : ∀ v, services.evaluate l.iterable s = .ok v → (∀ items, ¬ Items l.second.isSome v items) →
    r = throw (.evaluation (.iteration v.typeName))
  empty : ∀ v, services.evaluate l.iterable s = .ok v → Items l.second.isSome v [] → l.orElse = none → r = return ""
  final : ∀ v c, services.evaluate l.iterable s = .ok v → Items l.second.isSome v [] → l.orElse = some c →
    r = renderBlocks services name .all c.body s .taken
  rounds : ∀ v items, services.evaluate l.iterable s = .ok v → Items l.second.isSome v items → items ≠ [] →
    r = String.join <$> items.zipIdx.mapM (l.round services name s items.length)
  stops : ∀ v before item after texts e calls calls' calls'', services.evaluate l.iterable s = .ok v →
    Items l.second.isSome v (before ++ item :: after) →
    (ExceptT.run (before.zipIdx.mapM (l.round services name s (before ++ item :: after).length))).run calls =
      (.ok texts, calls') →
    (ExceptT.run (l.round services name s (before ++ item :: after).length (item, before.length))).run calls' =
      (.error e, calls'') →
    (ExceptT.run r).run calls = (.error e, calls'')

section

variable {registry : TagRegistry} {services : Services} {name : String} {s : Scope} {block : Block} {l : Loop}

theorem inside_of_final (h : l.Read registry name block) :
    ∀ c ∈ l.orElse.toList, c.plugin = plugin ∧ c.tag.role = .inside := fun c hc =>
  have hc := h.final c (Option.mem_toList.1 hc)
  ⟨hc.plugin, hc.tag_role⟩

/-- Where there are no items, what follows the `empty` tag is rendered, and else the rounds are. -/
def Loop.over (services : Services) (name : String) (s : Scope) (l : Loop) (items : List Value) : Render String :=
  if items.isEmpty then
    match l.orElse with
    | none => return ""
    | some c => renderBlocks services name .all c.body s .taken
  else String.join <$> items.zipIdx.mapM (l.round services name s items.length)

theorem renderBlocks_pending (hf : ∀ c ∈ l.orElse, EmptyRead registry name c) :
    renderBlocks services name .insideTags (nest l.orElse.toList) s .pending = l.over services name s [] := by
  rw [Loop.over, List.isEmpty_nil, if_pos rfl]
  cases hl : l.orElse with
  | none => exact renderBlocks.eq_1 ..
  | some c =>
    rw [hl] at hf
    obtain ⟨p, t, body⟩ := c
    obtain ⟨rfl, hn, hrole, ts, hb⟩ := hf _ rfl
    rw [Option.toList_some, renderBlocks_nest_cons hrole, nest_nil, Branch.block, renderBlock_empty hrole,
      List.append_nil]
    exact describeTag_of_noFault (noFault_renderBlocks (ne_bare_of_stands hb.stands))

/-- The nested blocks of a loop render as a flat list of rounds does. -/
theorem renderBlock_loop (h : l.Read registry name block) (selector : Selector) :
    renderBlock services name block s selector = (do
      let v ← Render.ofResult ((services.evaluate l.iterable s).mapError (Failure.atTag name l.tag))
      let items ← Render.ofResult ((collect v l.second.isSome).mapError .evaluation)
      l.over services name s items) := by
  obtain ⟨ts, hb⟩ := h.body
  have hblock : block = .tag plugin l.tag (l.body ++ nest l.orElse.toList) := List.singleton_inj.1 h.nested
  rw [hblock, renderBlock_opening h.tag_role h.args, describeTag_ofResult_bind]
  refine bind_congr fun v => ?_
  cases collect v l.second.isSome with
  | error e => rfl
  | ok items =>
    rw [mapError_ok, ofResult_ok, pure_bind, pure_bind]
    cases items with
    | nil =>
      rw [List.isEmpty_nil, if_pos rfl, renderBlocks_passed hb.stands,
        describeTag_of_noFault (noFault_renderBlocks ne_bare_of_mem_nest), renderBlocks_pending h.final]
    | cons item items =>
      have hchildren (s : Scope) : renderBlocks services name .all (l.body ++ nest l.orElse.toList) s .taken =
          renderBlocks services name .all l.body s .taken :=
        renderBlocks_taken silent (inside_of_final h)
      exact describeTag_rounds hb.stands hchildren _ 0 _

theorem iterates_renderBlock (h : l.Read registry name block) (selector : Selector) :
    Iterates services name s l (renderBlock services name block s selector) := by
  have hover : ∀ v items, services.evaluate l.iterable s = .ok v → Items l.second.isSome v items →
      renderBlock services name block s selector = l.over services name s items := by
    intro v items hv hitems
    rw [renderBlock_loop h selector, hv, mapError_ok, ofResult_ok, pure_bind, collect_of_items hitems]
    rfl
  constructor
  · intro e he
    rw [renderBlock_loop h selector, he]
    rfl
  · intro v hv hitems
    rw [renderBlock_loop h selector, hv, mapError_ok, ofResult_ok, pure_bind, collect_of_no_items hitems]
    rfl
  · intro v hv hitems hl
    rw [hover v [] hv hitems, Loop.over, hl]
    rfl
  · intro v c hv hitems hl
    rw [hover v [] hv hitems, Loop.over, hl]
    rfl
  · intro v items hv hitems hne
    rw [hover v items hv hitems, Loop.over, if_neg (by rwa [List.isEmpty_iff])]
  · intro v before item after texts e calls calls' calls'' hv hitems hbefore hitem
    have hzip : (before ++ item :: after).zipIdx =
        before.zipIdx ++ (item, before.length) :: after.zipIdx (before.length + 1) := by
      rw [List.zipIdx_append, List.zipIdx_cons, Nat.zero_add]
    rw [hover v _ hv hitems, Loop.over, if_neg (by simp), ExceptT.run_map, StateT.run_map, hzip,
      run_mapM_of_stop hbefore hitem]
    rfl

end

/-- Each block of the family that a template text has, at any depth, is a loop, and renders a round for each item. The
scope of a round is that of its item, and an item without the parts that the targets need is an error. Where only
built-in families are registered, what follows a tag renders as it does anywhere else, whatever selector it is told. -/
theorem render_rounds {registry : TagRegistry} {text name : String} {template : Template} {tag : Tag}
    {children : List Block} (hreg : registry.Reachable) (hread : Template.read registry text name = .ok template)
    (hocc : (Block.tag plugin tag children).Occurs template.blocks) (hrole : tag.role = .opening) :
    ∃ l : Loop, l.tag = tag ∧ l.Read registry name (.tag plugin tag children) ∧
      (∃ ts, ts <:+: tokens text ∧ Construct registry name ts [.tag plugin tag children]) ∧
      (∀ services s selector, Iterates services name s l
        (renderBlock services name (.tag plugin tag children) s selector)) ∧
      (∀ s length i item parts, l.parts item = some parts →
        ∃ s', l.scope s length i item = .ok s' ∧ RoundScope l s length i parts s') ∧
      (∀ s length i item, l.parts item = none →
        ∃ e, l.scope s length i item = .error e ∧ RoundError name l item e) ∧
      (registry.OnlyBuiltin → ∀ bs ∈ l.body :: l.orElse.toList.map Branch.body,
        ∀ services s selector selector', renderBlocks services name .all bs s selector =
          renderBlocks services name .all bs s selector') := by
  obtain ⟨body, branches, hbranched, hts⟩ := exists_branched hreg hread hocc hrole
  obtain ⟨l, hl, hloop⟩ := exists_loop hreg hbranched
  refine ⟨l, hl, hloop, hts, fun services s => iterates_renderBlock hloop, fun s length i item parts h =>
    scope_of_parts h, fun s length i item h => scope_of_no_parts h, fun hbuiltin bs hbs services s selector selector' => ?_⟩
  obtain ⟨us, hb⟩ := hloop.bodies bs hbs
  exact renderBlocks_selector hreg hbuiltin hb.stands selector selector'

/-- The text `{% for a, b in x %}{{ loop.index }}{% empty %}none{% endfor %}`. -/
def pairsText : String :=
  "\x7b% for a, b in x %\x7d\x7b\x7b loop.index \x7d\x7d\x7b% empty %\x7dnone\x7b% endfor %\x7d"

theorem render_rounds_pairs : ∃ template tag children,
    Template.read builtinRegistry pairsText "t" = .ok template ∧
    (Block.tag plugin tag children).Occurs template.blocks ∧ tag.role = .opening ∧
    ∃ l : Loop, l.tag = tag ∧ l.Read builtinRegistry "t" (.tag plugin tag children) ∧
      ∀ services s selector, Iterates services "t" s l
        (renderBlock services "t" (.tag plugin tag children) s selector) := by
  let inner : Block := .tag plugin ⟨"empty", .inside, "", .none, 1, "t"⟩ [.text "none"]
  let tag : Tag := ⟨"for", .opening, "a, b in x", .loop "a" (some "b") (.name "x"), 1, "t"⟩
  have hread : Template.read builtinRegistry pairsText "t" =
      .ok ⟨"t", [.tag plugin tag [.output "loop.index" 1, inner]]⟩ := by
    with_unfolding_all rfl
  have hocc : (Block.tag plugin tag [.output "loop.index" 1, inner]).Occurs
      [.tag plugin tag [.output "loop.index" 1, inner]] :=
    .here (List.mem_singleton_self _)
  obtain ⟨l, hl, hloop, -, hiterates, -⟩ := render_rounds reachable_builtinRegistry hread hocc rfl
  exact ⟨_, tag, _, hread, hocc, rfl, l, hl, hloop, hiterates⟩

end TemplateEngine.ForTag

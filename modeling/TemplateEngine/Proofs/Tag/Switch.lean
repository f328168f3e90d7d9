/-
The meaning of switches. The value is passed on from case to case, each nested into the one before it, and each case
picks itself by the selector that it is told. A block that has been read renders what follows the first case that has
the value among its candidates, and nothing else.
-/
import TemplateEngine.Environment.Render
import TemplateEngine.Proofs.Tag.Branches

namespace TemplateEngine.SwitchTag

open Template

/-! ## Switches that have been read -/

/-- A case with the expression of its candidates, and what follows it. -/
structure Case where
  tag : Tag
  candidates : Expr
  body : List Block

/-- The branch of a case. -/
def Case.branch (c : Case) : Branch :=
  ⟨plugin, c.tag, c.body⟩

/-- A case has its signature, between brackets, as the expression of its candidates, and a row of constructs follows
it. -/
structure Case.Read (registry : TagRegistry) (name : String) (c : Case) : Prop where
  tag_name : c.tag.name = "case"
  tag_role : c.tag.role = .inside
  args : c.tag.args = .expr c.candidates
  candidates : Expr.read ("[" ++ c.tag.signature ++ "]") = .ok c.candidates
  body : ∃ ts, Content registry name ts c.body

/-- A branch is a `default` of the family, and a row of constructs follows it. -/
structure DefaultRead (registry : TagRegistry) (name : String) (c : Branch) : Prop where
  plugin : c.plugin = plugin
  tag_name : c.tag.name = "default"
  tag_role : c.tag.role = .inside
  body : ∃ ts, Content registry name ts c.body

/-- A switch: its tag with the expression of the value, what stands before the first case, the cases, and the
`default` if there is one. -/
structure Switch where
  tag : Tag
  subject : Expr
  front : List Block
  cases : List Case
  orElse : Option Branch

/-- A block that has been read as a switch, with its branches nested into each other in this order. -/
structure Switch.Read (registry : TagRegistry) (name : String) (block : Block) (w : Switch) : Prop where
  nested : [block] = nest (⟨plugin, w.tag, w.front⟩ :: (w.cases.map Case.branch ++ w.orElse.toList))
  tag_name : w.tag.name = "switch"
  tag_role : w.tag.role = .opening
  args : w.tag.args = .expr w.subject
  subject : Expr.read w.tag.signature = .ok w.subject
  front : ∃ ts, Content registry name ts w.front
  inside : ∀ c ∈ w.cases, c.Read registry name
  final : ∀ c ∈ w.orElse, DefaultRead registry name c

/-- A row of constructs follows each case and the `default`. -/
theorem Switch.Read.bodies {registry : TagRegistry} {name : String} {block : Block} {w : Switch}
    (h : w.Read registry name block) :
    ∀ bs ∈ w.cases.map Case.body ++ w.orElse.toList.map Branch.body, ∃ ts, Content registry name ts bs := by
  intro bs hbs
  rcases List.mem_append.1 hbs with hbs | hbs
  · obtain ⟨c, hc, rfl⟩ := List.mem_map.1 hbs
    exact (h.inside c hc).body
  · obtain ⟨c, hc, rfl⟩ := List.mem_map.1 hbs
    exact (h.final c (Option.mem_toList.1 hc)).body

section

variable {registry : TagRegistry} {name : String}

/-- The signature of a case is read between brackets, that of a switch as it is. -/
theorem readArgs_eq_ok {word signature : String} {role : TagRole} {args : TagArgs} (hw : word ≠ "default")
    (h : readArgs word role signature = .ok args) : ∃ e, args = .expr e ∧
      Expr.read (if word = "case" then "[" ++ signature ++ "]" else signature) = .ok e := by
  rw [readArgs, if_neg (by simpa using hw)] at h
  by_cases hc : word = "case"
  · rw [if_pos (by simpa using hc)] at h
    obtain ⟨source, hs, h⟩ := bind_eq_ok.1 h
    obtain ⟨e, he, h⟩ := bind_eq_ok.1 h
    cases h
    rw [requireSignature_eq_ok hs] at he
    exact ⟨e, rfl, by rw [if_pos hc]; exact mapError_eq_ok.1 he⟩
  · rw [if_neg (by simpa using hc)] at h
    rw [if_neg hc]
    exact readSignature_eq_ok h

theorem exists_case {b : Branch} (h : b.Read registry name plugin .inside) (hn : b.tag.name = "case") :
    ∃ c : Case, c.branch = b ∧ c.Read registry name := by
  obtain ⟨p, t, bs⟩ := b
  obtain ⟨rfl, hrole, -, hargs, hbody⟩ := h
  have hargs : readArgs t.name .inside t.signature = .ok t.args := hargs
  have hn : t.name = "case" := hn
  obtain ⟨e, he, hread⟩ := readArgs_eq_ok (by rw [hn]; decide) hargs
  rw [if_pos hn] at hread
  exact ⟨⟨t, e, bs⟩, rfl, hn, hrole, he, hread, hbody⟩

/-- A block of the family is a switch. -/
theorem exists_switch (hreg : registry.Reachable) {block : Block} {t : Tag} {front : List Block}
    {branches : List Branch} (h : Branched registry name plugin block ⟨plugin, t, front⟩ branches) :
    ∃ w : Switch, w.tag = t ∧ w.Read registry name block := by
  have hword : t.name = "switch" := List.mem_singleton.1 (h.opening.mem_names hreg)
  have hargs : readArgs t.name .opening t.signature = .ok t.args := h.opening.args
  obtain ⟨subject, hsubject, hread⟩ := readArgs_eq_ok (by rw [hword]; decide) hargs
  rw [if_neg (by rw [hword]; decide)] at hread
  -- `default` is final, so that only the last branch can be one
  obtain ⟨cases, orElse, rfl, hcase, hdefault⟩ :=
    exists_final (fun b hb => (h.inside b hb).mem_insideNames hreg)
      fun b hb hn => h.final b hb (by rw [hn]; decide)
  obtain ⟨cases, rfl, hinside⟩ := exists_map_eq fun b hb =>
    exists_case (h.inside b (List.mem_append_left _ hb)) (hcase b hb)
  refine ⟨⟨t, subject, front, cases, orElse⟩, rfl, h.nested, hword, h.opening.tag_role, hsubject, hread,
    h.opening.body, hinside, fun c hc => ?_⟩
  have hc' := h.inside c (List.mem_append_right _ (Option.mem_toList.2 hc))
  exact ⟨hc'.plugin, hdefault c hc, hc'.tag_role, hc'.body⟩

end

/-! ## Candidates -/

/-- Whether a case has a value among its candidates; the value is held while they are evaluated. -/
def Case.verdict (services : Services) (s : Scope) (v : Value) (c : Case) : Except Failure Bool := do
  let candidates ← services.evaluate c.candidates (s.holding v)
  liftFault (candidates.contains v)

/-- A list of candidates has the value of one of its items. -/
theorem Case.verdict_list {c : Case} {items : List Expr} (h : c.candidates = .list items) (env : Environment)
    (depth : Nat) (s : Scope) (v : Value) : c.verdict (env.services depth) s v =
      (fun ws => ws.any fun w => v.same w) <$>
        (⟨env.host, env.undefined⟩ : Evaluator).evalAll (s.holding v) items := by
  rw [verdict, h, env.evaluate_services, Environment.evaluate, Evaluator.eval]
  cases (⟨env.host, env.undefined⟩ : Evaluator).evalAll (s.holding v) items <;> rfl

/-! ## Single tags -/

section

variable {services : Services} {name : String} {s : Scope} {selector : Selector} {t : Tag} {cs : List Block}

theorem renderBlock_opening (hr : t.role = .opening) :
    renderBlock services name (.tag plugin t cs) s selector = describeTag name t (do
      let v ← t.evaluate services s
      renderBlocks services name .insideTags cs s (.subject v)) := by
  rw [renderBlock]
  simp only [plugin, render, hr, bind_map_left, Outcome.resolve, bind_pure, bind_assoc]

theorem silent : plugin.Silent := by
  intro t s services children hr
  simp only [plugin, render, hr, pick, pure_bind, Outcome.resolve]

theorem renderBlock_default (hr : t.role = .inside) (hn : t.name = "default") (v : Value) :
    renderBlock services name (.tag plugin t cs) s (.subject v) =
      describeTag name t (renderBlocks services name .all cs s .taken) := by
  rw [renderBlock]
  simp only [plugin, render, hr, pick, pure_bind, Outcome.resolve, hn, BEq.rfl, if_true, bind_map_left, bind_pure]

theorem renderBlock_case (hr : t.role = .inside) (hn : t.name ≠ "default") (v : Value) :
    renderBlock services name (.tag plugin t cs) s (.subject v) = describeTag name t (do
      let candidates ← t.evaluate services (s.holding v)
      if ← Render.ofResult (liftFault (candidates.contains v)) then renderBlocks services name .all cs s .taken
      else renderBlocks services name .insideTags cs s (.subject v)) := by
  rw [renderBlock]
  simp only [plugin, render, hr, pick, pure_bind, Outcome.resolve, beq_iff_eq, hn, if_false, bind_assoc]
  refine congrArg (describeTag name t) (bind_congr fun candidates => bind_congr fun found => ?_)
  split <;> simp only [bind_map_left, bind_pure]

end

/-! ## The first case that has the value -/

section

variable {registry : TagRegistry} {services : Services} {name : String} {s : Scope} {v : Value} {c : Case}
  {cases : List Case} {orElse : Option Branch} {branches : List Branch}

/-- A case that has the value gives what follows it, one that does not passes it on to the next branch, and one whose
candidates fail is the failure of its tag. -/
theorem renderBlock_verdict (hc : c.Read registry name)
    (h : ∀ d ∈ branches, d.plugin = plugin ∧ d.tag.role = .inside) :
    renderBlock services name (c.branch.block (nest branches)) s (.subject v) =
      match c.verdict services s v with
      | .error e => throw (e.atTag name c.tag)
      | .ok true => renderBlocks services name .all c.body s .taken
      | .ok false => renderBlocks services name .insideTags (nest branches) s (.subject v) := by
  obtain ⟨ts, hb⟩ := hc.body
  have hn : c.tag.name ≠ "default" := by rw [hc.tag_name]; decide
  rw [Case.branch, Branch.block, renderBlock_case hc.tag_role hn, renderBlocks_taken silent h,
    renderBlocks_passed hb.stands, Tag.evaluate, hc.args, Case.verdict]
  dsimp only
  cases services.evaluate c.candidates (s.holding v) with
  | error e => exact describeTag_throw e
  | ok candidates =>
    rw [ok_bind, ofResult_ok, pure_bind]
    cases liftFault (candidates.contains v) with
    | error e =>
      rw [ofResult_error, throw_bind]
      exact describeTag_throw e
    | ok found =>
      rw [ofResult_ok, pure_bind]
      cases found with
      | true => exact describeTag_of_noFault (noFault_renderBlocks (ne_bare_of_stands hb.stands))
      | false => exact describeTag_of_noFault (noFault_renderBlocks ne_bare_of_mem_nest)

/-- What follows the first case that has a value, or else the `default`. -/
def chosen (services : Services) (name : String) (s : Scope) (v : Value) (orElse : Option Branch) :
    List Case → Render String
  | [] =>
    match orElse with
    | none => return ""
    | some c => renderBlocks services name .all c.body s .taken
  | c :: cs =>
    match c.verdict services s v with
    | .error e => throw (e.atTag name c.tag)
    | .ok true => renderBlocks services name .all c.body s .taken
    | .ok false => chosen services name s v orElse cs

theorem inside_of_cases (hr : ∀ c ∈ cases, c.Read registry name) (hf : ∀ c ∈ orElse, DefaultRead registry name c) :
    ∀ c ∈ cases.map Case.branch ++ orElse.toList, c.plugin = plugin ∧ c.tag.role = .inside := by
  intro c hc
  rcases List.mem_append.1 hc with hc | hc
  · obtain ⟨d, hd, rfl⟩ := List.mem_map.1 hc
    exact ⟨rfl, (hr d hd).tag_role⟩
  · have hc := hf c (Option.mem_toList.1 hc)
    exact ⟨hc.plugin, hc.tag_role⟩

/-- Where no case has had the value yet, the nested branches choose as a flat list of cases does. -/
theorem renderBlocks_subject (hr : ∀ c ∈ cases, c.Read registry name)
    (hf : ∀ c ∈ orElse, DefaultRead registry name c) :
    renderBlocks services name .insideTags (nest (cases.map Case.branch ++ orElse.toList)) s (.subject v) =
      chosen services name s v orElse cases := by
  induction cases with
  | nil =>
    cases orElse with
    | none => exact renderBlocks.eq_1 ..
    | some c =>
      obtain ⟨p, t, body⟩ := c
      obtain ⟨rfl, hn, hrole, ts, hb⟩ := hf _ rfl
      rw [List.map_nil, List.nil_append, Option.toList_some, renderBlocks_nest_cons hrole, nest_nil, Branch.block,
        renderBlock_default hrole hn, List.append_nil]
      exact describeTag_of_noFault (noFault_renderBlocks (ne_bare_of_stands hb.stands))
  | cons c cases ih =>
    have hc := hr c (List.mem_cons_self ..)
    have hrest : ∀ d ∈ cases, d.Read registry name := fun d hd => hr d (List.mem_cons_of_mem _ hd)
    rw [List.map_cons, List.cons_append, renderBlocks_nest_cons hc.tag_role,
      renderBlock_verdict hc (inside_of_cases hrest hf), ih hrest, chosen]

theorem chosen_of_lacks {before : List Case} (h : ∀ d ∈ before, d.verdict services s v = .ok false)
    (cs : List Case) : chosen services name s v orElse (before ++ cs) = chosen services name s v orElse cs := by
  induction before with
  | nil => rfl
  | cons d before ih =>
    rw [List.cons_append, chosen, h d (List.mem_cons_self ..)]
    exact ih fun c hc => h c (List.mem_cons_of_mem _ hc)

end

/-! ## What a switch renders -/

/-- A render is that of a switch: the value comes first, then the candidates of one case after the other up to the first
that has the value. Neither the candidates after them nor what stands elsewhere in the block has a part in it. -/
structure Selects (services : Services) (name : String) (s : Scope) (w : Switch) (r : Render String) : Prop where
  subject : ∀ e, services.evaluate w.subject s = .error e → r = throw (e.atTag name w.tag)
  matched : ∀ v before c after, services.evaluate w.subject s = .ok v → w.cases = before ++ c :: after →
    (∀ d ∈ before, d.verdict services s v = .ok false) → c.verdict services s v = .ok true →
    r = renderBlocks services name .all c.body s .taken
  failed : ∀ v before c after e, services.evaluate w.subject s = .ok v → w.cases = before ++ c :: after →
    (∀ d ∈ before, d.verdict services s v = .ok false) → c.verdict services s v = .error e →
    r = throw (e.atTag name c.tag)
  final : ∀ v c, services.evaluate w.subject s = .ok v → w.orElse = some c →
    (∀ d ∈ w.cases, d.verdict services s v = .ok false) → r = renderBlocks services name .all c.body s .taken
  empty : ∀ v, services.evaluate w.subject s = .ok v → w.orElse = none →
    (∀ d ∈ w.cases, d.verdict services s v = .ok false) → r = return ""

section

variable {registry : TagRegistry} {services : Services} {name : String} {s : Scope} {block : Block} {w : Switch}

/-- A switch renders as the flat list of its cases chooses. -/
theorem renderBlock_switch (h : w.Read registry name block) (selector : Selector) :
    renderBlock services name block s selector =
      match services.evaluate w.subject s with
      | .error e => throw (e.atTag name w.tag)
      | .ok v => chosen services name s v w.orElse w.cases := by
  obtain ⟨ts, hb⟩ := h.front
  have hblock : block = .tag plugin w.tag (w.front ++ nest (w.cases.map Case.branch ++ w.orElse.toList)) :=
    List.singleton_inj.1 h.nested
  rw [hblock, renderBlock_opening h.tag_role, Tag.evaluate, h.args]
  dsimp only
  cases services.evaluate w.subject s with
  | error e => exact describeTag_throw e
  | ok v =>
    show describeTag name w.tag (renderBlocks services name .insideTags _ s (.subject v)) = _
    rw [renderBlocks_passed hb.stands, describeTag_of_noFault (noFault_renderBlocks ne_bare_of_mem_nest),
      renderBlocks_subject h.inside h.final]

theorem selects_renderBlock (h : w.Read registry name block) (selector : Selector) :
    Selects services name s w (renderBlock services name block s selector) := by
  rw [renderBlock_switch h selector]
  constructor
  · intro e he
    rw [he]
  · intro v before c after hv hcases hb hc
    rw [hv, hcases]
    show chosen services name s v w.orElse _ = _
    rw [chosen_of_lacks hb, chosen, hc]
  · intro v before c after e hv hcases hb hc
    rw [hv, hcases]
    show chosen services name s v w.orElse _ = _
    rw [chosen_of_lacks hb, chosen, hc]
  · intro v c hv hc hb
    rw [hv, hc, ← List.append_nil w.cases]
    show chosen services name s v (some c) _ = _
    rw [chosen_of_lacks hb, chosen]
  · intro v hv hc hb
    rw [hv, hc, ← List.append_nil w.cases]
    show chosen services name s v none _ = _
    rw [chosen_of_lacks hb, chosen]

end

/-- Each block of the family that a template text has, at any depth, is a switch, and renders what follows the first
case that has the value. The candidates of a case that is read as a list are the values of its items. Where only built-in
families are registered, what follows a tag renders as it does anywhere else, whatever selector it is told. -/
theorem render_first_case {registry : TagRegistry} {text name : String} {template : Template} {tag : Tag}
    {children : List Block} (hreg : registry.Reachable) (hread : Template.read registry text name = .ok template)
    (hocc : (Block.tag plugin tag children).Occurs template.blocks) (hrole : tag.role = .opening) :
    ∃ w : Switch, w.tag = tag ∧ w.Read registry name (.tag plugin tag children) ∧
      (∃ ts, ts <:+: tokens text ∧ Construct registry name ts [.tag plugin tag children]) ∧
      (∀ services s selector, Selects services name s w
        (renderBlock services name (.tag plugin tag children) s selector)) ∧
      (∀ c ∈ w.cases, ∀ items, c.candidates = .list items → ∀ (env : Environment) depth s v,
        c.verdict (env.services depth) s v = (fun ws => ws.any fun w => v.same w) <$>
          (⟨env.host, env.undefined⟩ : Evaluator).evalAll (s.holding v) items) ∧
      (registry.OnlyBuiltin → ∀ bs ∈ w.cases.map Case.body ++ w.orElse.toList.map Branch.body,
        ∀ services s selector selector', renderBlocks services name .all bs s selector =
          renderBlocks services name .all bs s selector') := by
  obtain ⟨front, branches, hbranched, hts⟩ := exists_branched hreg hread hocc hrole
  obtain ⟨w, hw, hswitch⟩ := exists_switch hreg hbranched
  refine ⟨w, hw, hswitch, hts, fun services s => selects_renderBlock hswitch,
    fun c _ items h => Case.verdict_list h, fun hbuiltin bs hbs services s selector selector' => ?_⟩
  obtain ⟨us, hb⟩ := hswitch.bodies bs hbs
  exact renderBlocks_selector hreg hbuiltin hb.stands selector selector'

/-- The text `{% switch n %}{{ ( }}{% case 1, 2 %}x{% default %}y{% endswitch %}`; its output is no expression. -/
def listText : String :=
  "\x7b% switch n %\x7d\x7b\x7b ( \x7d\x7d\x7b% case 1, 2 %\x7dx\x7b% default %\x7dy\x7b% endswitch %\x7d"

theorem render_first_case_list : ∃ template tag children,
    Template.read builtinRegistry listText "t" = .ok template ∧
    (Block.tag plugin tag children).Occurs template.blocks ∧ tag.role = .opening ∧
    ∃ w : Switch, w.tag = tag ∧ w.Read builtinRegistry "t" (.tag plugin tag children) ∧
      ∀ services s selector, Selects services "t" s w
        (renderBlock services "t" (.tag plugin tag children) s selector) := by
  let last : Block := .tag plugin ⟨"default", .inside, "", .none, 1, "t"⟩ [.text "y"]
  let candidates : Expr := .list [.literal (.int 1), .literal (.int 2)]
  let inner : Block := .tag plugin ⟨"case", .inside, "1, 2", .expr candidates, 1, "t"⟩ [.text "x", last]
  let tag : Tag := ⟨"switch", .opening, "n", .expr (.name "n"), 1, "t"⟩
  have hread : Template.read builtinRegistry listText "t" = .ok ⟨"t", [.tag plugin tag [.output "(" 1, inner]]⟩ := by
    with_unfolding_all rfl
  have hocc : (Block.tag plugin tag [.output "(" 1, inner]).Occurs [.tag plugin tag [.output "(" 1, inner]] :=
    .here (List.mem_singleton_self _)
  obtain ⟨w, hw, hswitch, -, hselects, -⟩ := render_first_case reachable_builtinRegistry hread hocc rfl
  exact ⟨_, tag, _, hread, hocc, rfl, w, hw, hswitch, hselects⟩

end TemplateEngine.SwitchTag

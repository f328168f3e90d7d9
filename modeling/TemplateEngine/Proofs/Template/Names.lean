/-
The free names of a template. A tag may bind names for what follows it, and what the inside tags of its block hold stands
outside of these bindings. In two scopes in which its free names mean the same, a block without includes has one text, or
fails in one way.
-/
import TemplateEngine.Proofs.Expr.Names
import TemplateEngine.Proofs.Tag.Branches

namespace TemplateEngine

open Template

/-! ## Free names -/

/-- The names that the expression of a tag mentions. -/
def TagArgs.names : TagArgs → List String
  | .expr e => e.names
  | .loop _ _ e => e.names
  | .binding _ e => e.names
  | _ => []

/-- The names that a tag binds for what follows it. -/
def TagArgs.bound : TagArgs → List String
  | .loop target second _ => "loop" :: target :: second.toList
  | .binding target _ => [target]
  | _ => []

/-- The free names of a tag. The name of the text that is filtered has its meaning from the tag. -/
def Tag.freeNames (p : TagPlugin) (t : Tag) : List String :=
  if p.family = "apply" then t.args.names.filter (· ≠ ApplyTag.bodyName) else t.args.names

/-- The names that the source of an output mentions. -/
def sourceNames (source : String) : List String :=
  match Expr.read source with
  | .ok e => e.names
  | .error _ => []

mutual

/-- The names that mean in a block what they mean around it. -/
def Block.freeNames : Block → List String
  | .text _ => []
  | .output source _ => sourceNames source
  | .tag p t cs => t.freeNames p ++ Block.freeNamesBelow t.args.bound cs
  | .bare => []

/-- The free names of some blocks below a tag that binds names for all of them but the inside tags. -/
def Block.freeNamesBelow (bound : List String) : List Block → List String
  | [] => []
  | b :: bs => (if b.isInside then b.freeNames else b.freeNames.filter (· ∉ bound)) ++ Block.freeNamesBelow bound bs

end

/-- The free names of a template. -/
def Template.freeNames (t : Template) : List String :=
  Block.freeNamesBelow [] t.blocks

theorem Block.mem_freeNamesBelow {bound : List String} {n : String} {bs : List Block} :
    n ∈ freeNamesBelow bound bs ↔ ∃ b ∈ bs, n ∈ b.freeNames ∧ (b.isInside = true ∨ n ∉ bound) := by
  induction bs with
  | nil => simp [freeNamesBelow]
  | cons b bs ih =>
    rw [freeNamesBelow, List.mem_append, ih, List.exists_mem_cons_iff]
    refine or_congr ?_ Iff.rfl
    cases hb : b.isInside <;> simp

/-! ## Single tags -/

/-- What is asked of the services gives the same in scopes that agree on the names of an expression. -/
def Services.Local (S : Services) : Prop :=
  ∀ e s s', s.AgreeOn e.names s' → S.evaluate e s' = S.evaluate e s

/-- The children of a tag have the same texts in two scopes: all of them where the tag binds no names or its names are
bound, and the inside tags in any case. -/
structure ChildrenAgree (args : TagArgs) (c : ChildrenRenderer) (s s' : Scope) : Prop where
  within : ∀ b : Bindings, (∀ n ∈ args.bound, (b.value? n).isSome) → ∀ selector choice,
    c (s'.child b) selector choice = c (s.child b) selector choice
  around : args.bound = [] → ∀ selector choice, c s' selector choice = c s selector choice
  inside : ∀ selector, c s' selector .insideTags = c s selector .insideTags

/-- A tag of a built-in family that includes nothing. It binds names only where its family does, and an inside tag binds
none. -/
structure Tag.Suits (p : TagPlugin) (t : Tag) : Prop where
  builtin : p ∈ builtinTags
  family : p.family ≠ "include"
  bound : t.args.bound = [] ∨ p = WithTag.plugin ∨ p = ForTag.plugin ∧ t.role ≠ .inside

section

variable {t : Tag} {S : Services} {c : ChildrenRenderer} {s s' : Scope}

theorem evaluate_agreeOn (hS : S.Local) (hs : s.AgreeOn t.args.names s') : t.evaluate S s' = t.evaluate S s := by
  unfold Tag.evaluate
  cases ha : t.args with
  | expr e =>
    rw [ha, TagArgs.names] at hs
    dsimp only
    rw [hS e s s' hs]
  | _ => rfl

/-- A round of a loop binds its targets. -/
theorem isSome_of_bind {target : String} {second : Option String} {item : Value} {b : Bindings}
    (h : ForTag.bind target second item = .ok b) : ∀ n ∈ target :: second.toList, (b.value? n).isSome := by
  intro n hn
  cases second with
  | none =>
    cases h
    cases List.mem_singleton.1 hn
    rw [Bindings.value?_cons_self, Option.isSome_some]
  | some second =>
    unfold ForTag.bind at h
    dsimp only at h
    split at h
    · cases h
      rw [Bindings.value?_insert, Bindings.value?_cons]
      by_cases hs : second = n
      · rw [if_pos hs, Option.isSome_some]
      · have ht : target = n := by simpa [Ne.symm hs, eq_comm] using hn
        rw [if_neg hs, if_pos ht, Option.isSome_some]
    · cases h
    · exact absurd h Evaluator.shown_ne_ok

variable (hS : S.Local) (hc : ChildrenAgree t.args c s s')

include hS hc

theorem render_if (hb : t.args.bound = []) (hs : s.AgreeOn t.args.names s') :
    IfTag.render t s' S c = IfTag.render t s S c := by
  have hbranch : IfTag.branch t s' S c = IfTag.branch t s S c := by
    simp only [IfTag.branch, evaluate_agreeOn hS hs, hc.around hb]
  have hpick : IfTag.pick t s' S c = IfTag.pick t s S c := by
    funext selector
    simp only [IfTag.pick, hbranch, hc.around hb]
  rw [IfTag.render, IfTag.render, hbranch, hpick]

theorem render_switch (hb : t.args.bound = []) (hs : s.AgreeOn t.args.names s') :
    SwitchTag.render t s' S c = SwitchTag.render t s S c := by
  have hpick : SwitchTag.pick t s' S c = SwitchTag.pick t s S c := by
    funext selector
    simp only [SwitchTag.pick, fun v => evaluate_agreeOn hS (hs.holding v), hc.around hb]
  simp only [SwitchTag.render, hpick, evaluate_agreeOn hS hs, hc.around hb]

omit hS in
/-- By induction on the items: in each round all names of the tag are bound. -/
theorem rounds_agree {target : String} {second : Option String} {iterable : Expr}
    (ha : t.args = .loop target second iterable) (length : Nat) (items : List Value) (i : Nat) :
    ForTag.rounds target second s' c length i items = ForTag.rounds target second s c length i items := by
  induction items generalizing i with
  | nil => rfl
  | cons item items ih =>
    rw [ForTag.rounds, ForTag.rounds]
    cases hbind : ForTag.bind target second item with
    | error e => rfl
    | ok b =>
      have hbound : ∀ n ∈ t.args.bound, ((b.insert "loop" (.loop i length)).value? n).isSome := by
        rw [ha]
        intro n hn
        rw [Bindings.value?_insert]
        by_cases hloop : "loop" = n
        · rw [if_pos hloop, Option.isSome_some]
        · rw [if_neg hloop]
          exact isSome_of_bind hbind n ((List.mem_cons.1 hn).resolve_left (Ne.symm hloop))
      simp only [ofResult_ok, pure_bind, hc.within _ hbound, ih]

theorem render_for (hb : t.args.bound = [] ∨ t.role ≠ .inside) (hs : s.AgreeOn t.args.names s') :
    ForTag.render t s' S c = ForTag.render t s S c := by
  unfold ForTag.render
  split
  · rename_i hr
    have hpick : ForTag.pick s' c = ForTag.pick s c := by
      funext selector
      simp only [ForTag.pick, hc.around (hb.resolve_right (absurd hr))]
    rw [hpick]
  · split
    · rename_i target second iterable ha
      rw [ha, TagArgs.names] at hs
      simp only [hS iterable s s' hs, hc.inside, rounds_agree hc ha]
    · rfl

theorem render_with (hs : s.AgreeOn t.args.names s') : WithTag.render t s' S c = WithTag.render t s S c := by
  unfold WithTag.render
  split
  · rename_i target value ha
    rw [ha, TagArgs.names] at hs
    have hbound (v : Value) : ∀ n ∈ t.args.bound, (Bindings.value? [(target, v)] n).isSome := by
      rw [ha]
      intro n hn
      cases List.mem_singleton.1 hn
      rw [Bindings.value?_cons_self, Option.isSome_some]
    simp only [hS value s s' hs, hc.within _ (hbound _)]
  · rfl

theorem render_apply (hb : t.args.bound = []) (hs : s.AgreeOn (t.args.names.filter (· ≠ ApplyTag.bodyName)) s') :
    ApplyTag.render t s' S c = ApplyTag.render t s S c := by
  have hbody (body : String) : (s.child [(ApplyTag.bodyName, .str body)]).AgreeOn t.args.names
      (s'.child [(ApplyTag.bodyName, .str body)]) := by
    refine hs.child fun n hn => ?_
    by_cases h : n = ApplyTag.bodyName
    · right
      rw [h, Bindings.value?_cons_self, Option.isSome_some]
    · exact .inl (List.mem_filter.2 ⟨hn, by simpa using h⟩)
  simp only [ApplyTag.render, hc.around hb, evaluate_agreeOn hS (hbody _)]

theorem render_agreeOn {p : TagPlugin} (ht : t.Suits p) (hs : s.AgreeOn (t.freeNames p) s') :
    p.render t s' S c = p.render t s S c := by
  obtain ⟨hp, hf, hb⟩ := ht
  have hbound (hw : p.family ≠ "with") (hl : p.family ≠ "for" ∨ t.role = .inside) : t.args.bound = [] := by
    rcases hb with hb | rfl | ⟨rfl, hr⟩
    · exact hb
    · exact absurd rfl hw
    · exact hl.elim (absurd rfl) (absurd · hr)
  simp only [builtinTags, List.mem_cons, List.not_mem_nil, or_false] at hp
  rcases hp with rfl | rfl | rfl | rfl | rfl | rfl
  · exact render_if hS hc (hbound (by decide) (.inl (by decide))) hs
  · exact render_switch hS hc (hbound (by decide) (.inl (by decide))) hs
  · refine render_for hS hc ?_ hs
    by_cases hr : t.role = .inside
    · exact .inl (hbound (by decide) (.inr hr))
    · exact .inr hr
  · exact render_with hS hc hs
  · exact render_apply hS hc (hbound (by decide) (.inl (by decide))) hs
  · exact absurd rfl hf

end

/-! ## Blocks -/

variable {S : Services} {name : String}

mutual

/-- A block renders in the same way in all scopes in which its free names mean the same. -/
theorem renderBlock_agreeOn (hS : S.Local) : ∀ (b : Block),
    (∀ p t cs, (Block.tag p t cs).Occurs [b] → t.Suits p) → ∀ {s s' : Scope} (selector : Selector),
    s.AgreeOn b.freeNames s' → renderBlock S name b s' selector = renderBlock S name b s selector
  | .text _, _, s, s', selector, _ => by rw [renderBlock, renderBlock]
  | .bare, _, s, s', selector, _ => by rw [renderBlock, renderBlock]
  | .output source line, _, s, s', selector, hs => by
    rw [renderBlock, renderBlock, outputText, outputText]
    rw [Block.freeNames, sourceNames] at hs
    cases he : Expr.read source with
    | error e => rfl
    | ok e =>
      rw [he] at hs
      rw [mapError_ok, ok_bind, ok_bind, hS e s s' hs]
  | .tag p t cs, ht, s, s', selector, hs => by
    rw [Block.freeNames] at hs
    have hbelow : ∀ q u ds, (Block.tag q u ds).Occurs cs → u.Suits q := fun q u ds h =>
      ht q u ds (.within (List.mem_singleton_self _) h)
    have hc : ChildrenAgree t.args (fun s selector choice => renderBlocks S name choice cs s selector) s s' := by
      refine ⟨fun b hb selector choice => ?_, fun hb selector choice => ?_, fun selector => ?_⟩
      · refine renderBlocks_agreeOn hS cs hbelow choice selector fun d hd _ => hs.right.child fun n hn => ?_
        by_cases h : n ∈ t.args.bound
        · exact .inr (hb n h)
        · exact .inl (Block.mem_freeNamesBelow.2 ⟨d, hd, hn, .inr h⟩)
      · refine renderBlocks_agreeOn hS cs hbelow choice selector fun d hd _ => hs.right.mono fun n hn => ?_
        exact Block.mem_freeNamesBelow.2 ⟨d, hd, hn, .inr (by rw [hb]; exact List.not_mem_nil)⟩
      · refine renderBlocks_agreeOn hS cs hbelow .insideTags selector fun d hd hi => hs.right.mono fun n hn => ?_
        exact Block.mem_freeNamesBelow.2 ⟨d, hd, hn, .inl (hi rfl)⟩
    rw [renderBlock, renderBlock,
      render_agreeOn hS hc (ht p t cs (.here (List.mem_singleton_self _))) hs.left]

/-- A row renders in the same way in all scopes in which the free names of its blocks mean the same that are rendered. -/
theorem renderBlocks_agreeOn (hS : S.Local) : ∀ (bs : List Block),
    (∀ p t cs, (Block.tag p t cs).Occurs bs → t.Suits p) → ∀ {s s' : Scope} (choice : ChildChoice) (selector : Selector),
    (∀ b ∈ bs, (choice = .insideTags → b.isInside = true) → s.AgreeOn b.freeNames s') →
    renderBlocks S name choice bs s' selector = renderBlocks S name choice bs s selector
  | [], _, s, s', choice, selector, _ => by rw [renderBlocks, renderBlocks]
  | b :: bs, ht, s, s', choice, selector, hs => by
    have hrest := renderBlocks_agreeOn hS bs
      (fun p t cs h => ht p t cs (Block.occurs_cons.2 (.inr h))) choice selector
      fun d hd => hs d (List.mem_cons_of_mem _ hd)
    rw [renderBlocks, renderBlocks, hrest]
    split
    · rfl
    · rename_i hchoice
      have hb : s.AgreeOn b.freeNames s' := hs b (List.mem_cons_self ..) fun h => by
        simpa [h] using hchoice
      rw [renderBlock_agreeOn hS b (fun p t cs h => ht p t cs (Block.occurs_cons.2 (.inl h))) selector hb]

end

/-! ## Tags that have been read -/

section

variable {word signature : String} {role : TagRole} {args : TagArgs}

theorem bound_of_readSignature (h : readSignature word signature = .ok args) : args.bound = [] := by
  obtain ⟨e, rfl, -⟩ := readSignature_eq_ok h
  rfl

theorem bound_of_requireBlank
    (h : (do requireBlank word signature; return TagArgs.none : Except ArgumentProblem TagArgs) = .ok args) :
    args.bound = [] := by
  rw [requireBlank_eq_ok h]
  rfl

/-- What a built-in family reads binds no names, apart from the two families that bind some. -/
theorem bound_of_readArgs {p : TagPlugin} (hp : p ∈ builtinTags) (h : p.readArgs word role signature = .ok args) :
    args.bound = [] ∨ p = WithTag.plugin ∨ p = ForTag.plugin ∧ role ≠ .inside := by
  simp only [builtinTags, List.mem_cons, List.not_mem_nil, or_false] at hp
  rcases hp with rfl | rfl | rfl | rfl | rfl | rfl
  · left
    have h : IfTag.readArgs word role signature = .ok args := h
    unfold IfTag.readArgs at h
    split at h
    · exact bound_of_requireBlank h
    · exact bound_of_readSignature h
  · left
    have h : SwitchTag.readArgs word role signature = .ok args := h
    unfold SwitchTag.readArgs at h
    split at h
    · exact bound_of_requireBlank h
    · split at h
      · obtain ⟨source, -, h⟩ := bind_eq_ok.1 h
        obtain ⟨e, -, h⟩ := bind_eq_ok.1 h
        cases h
        rfl
      · exact bound_of_readSignature h
  · by_cases hr : role = .inside
    · left
      have h : ForTag.readArgs word role signature = .ok args := h
      rw [ForTag.readArgs, if_pos hr] at h
      exact bound_of_requireBlank h
    · exact .inr (.inr ⟨rfl, hr⟩)
  · exact .inr (.inl rfl)
  · left
    have h : ApplyTag.readArgs word role signature = .ok args := h
    obtain ⟨source, -, h⟩ := bind_eq_ok.1 h
    obtain ⟨e, -, h⟩ := bind_eq_ok.1 h
    split at h <;> cases h
    rfl
  · exact .inl (bound_of_readSignature h)

end

/-- The tags of a template that has been read suit their families. -/
theorem suits_of_read {registry : TagRegistry} {text name : String} {template : Template} {p : TagPlugin} {t : Tag}
    {cs : List Block} (hreg : registry.Reachable) (hb : registry.OnlyBuiltin)
    (hread : Template.read registry text name = .ok template) (hocc : (Block.tag p t cs).Occurs template.blocks)
    (hf : p.family ≠ "include") : t.Suits p := by
  obtain ⟨us, role, ht⟩ := ((read_eq_ok.1 hread).2.derived hocc).tagTokens
  have hp : p ∈ builtinTags := hb p (hreg.route ht.routed).1
  refine ⟨hp, hf, ?_⟩
  by_cases hrole : role = .closing
  · have hargs := ht.reads
    rw [TagRoute.Reads, if_pos hrole] at hargs
    rw [hargs]
    exact .inl rfl
  · rw [ht.role]
    exact bound_of_readArgs hp (ht.args hrole)

end TemplateEngine

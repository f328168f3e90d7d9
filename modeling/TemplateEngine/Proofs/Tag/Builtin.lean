/-
The built-in families. None of their tags that open a block or stand alone waits for a selector, so that
what stands in the content renders to the same text below whatever tag it lies.
-/
import TemplateEngine.Environment.Basic
import TemplateEngine.Proofs.Tag.Registry
import TemplateEngine.Proofs.Template.Shape
import TemplateEngine.Template.Render

namespace TemplateEngine

open Template

theorem reachable_builtinRegistry : builtinRegistry.Reachable :=
  TagRegistry.Reachable.empty.addAll builtinTags

/-! ## Signatures -/

section

variable {word signature source : String} {args : TagArgs}

theorem requireSignature_eq_ok (h : requireSignature word signature = .ok source) : source = signature := by
  unfold requireSignature at h
  split at h
  · cases h
  · cases h
    rfl

/-- A signature that is an expression is read as it stands. -/
theorem readSignature_eq_ok (h : readSignature word signature = .ok args) :
    ∃ e, args = .expr e ∧ Expr.read signature = .ok e := by
  obtain ⟨source, hs, h⟩ := bind_eq_ok.1 h
  obtain ⟨e, he, h⟩ := bind_eq_ok.1 h
  cases h
  rw [requireSignature_eq_ok hs] at he
  exact ⟨e, rfl, mapError_eq_ok.1 he⟩

/-- A signature that has to be blank is read to no arguments. -/
theorem requireBlank_eq_ok
    (h : (do requireBlank word signature; return TagArgs.none : Except ArgumentProblem TagArgs) = .ok args) :
    args = .none := by
  obtain ⟨u, -, h⟩ := bind_eq_ok.1 h
  cases h
  rfl

end

/-- What is refused has a text. -/
def Explained {α : Type} (r : Except ArgumentProblem α) : Prop :=
  ∀ f, r ≠ .error (.unwritten f)

/-- A family that has a text for all arguments that it refuses. -/
def TagPlugin.Explains (p : TagPlugin) : Prop :=
  ∀ tag role signature, Explained (p.readArgs tag role signature)

theorem explained_bind {α β : Type} {r : Except ArgumentProblem α} {k : α → Except ArgumentProblem β} (hr : Explained r)
    (hk : ∀ a, Explained (k a)) : Explained (r >>= k) := by
  intro f h
  rcases bind_eq_error.1 h with h | ⟨a, -, h⟩
  · exact hr f h
  · exact hk a f h

theorem explained_ok {α : Type} (a : α) : Explained (.ok a) :=
  fun _ => nofun

theorem explained_requireBlank (tag signature : String) : Explained (requireBlank tag signature) := by
  unfold requireBlank
  split <;> exact fun _ => nofun

theorem explained_requireSignature (tag signature : String) : Explained (requireSignature tag signature) := by
  unfold requireSignature
  split <;> exact fun _ => nofun

theorem explained_readExpr (source : String) : Explained (readExpr source) := by
  intro f h
  unfold readExpr at h
  cases hread : Expr.read source with
  | ok e => rw [hread] at h; cases h
  | error e => rw [hread] at h; cases h

theorem explained_readSignature (tag signature : String) : Explained (readSignature tag signature) :=
  explained_bind (explained_requireSignature tag signature) fun source =>
    explained_bind (explained_readExpr source) fun _ => explained_ok _

theorem explains_of_builtin {p : TagPlugin} (hp : p ∈ builtinTags) : p.Explains := by
  have hblank (tag signature : String) :
      Explained (do requireBlank tag signature; return TagArgs.none : Except ArgumentProblem TagArgs) :=
    explained_bind (explained_requireBlank tag signature) fun _ => explained_ok _
  intro tag role signature
  simp only [builtinTags, List.mem_cons, List.not_mem_nil, or_false] at hp
  rcases hp with rfl | rfl | rfl | rfl | rfl | rfl
  · show Explained (IfTag.readArgs tag role signature)
    unfold IfTag.readArgs
    split
    · exact hblank _ _
    · exact explained_readSignature _ _
  · show Explained (SwitchTag.readArgs tag role signature)
    unfold SwitchTag.readArgs
    split
    · exact hblank _ _
    · split
      · exact explained_bind (explained_requireSignature _ _) fun _ =>
          explained_bind (explained_readExpr _) fun _ => explained_ok _
      · exact explained_readSignature _ _
  · show Explained (ForTag.readArgs tag role signature)
    unfold ForTag.readArgs
    split
    · exact hblank _ _
    · split
      · exact explained_bind (explained_readExpr _) fun _ => explained_ok _
      · intro f h
        cases h
  · show Explained (WithTag.readArgs tag role signature)
    unfold WithTag.readArgs
    split
    · exact explained_bind (explained_readExpr _) fun _ => explained_ok _
    · intro f h
      cases h
  · show Explained (ApplyTag.readArgs tag role signature)
    unfold ApplyTag.readArgs
    refine explained_bind (explained_requireSignature _ _) fun _ => explained_bind (explained_readExpr _) fun e => ?_
    split
    · exact explained_ok _
    · intro f h
      cases h
  · exact explained_readSignature tag signature

/-! ## Texts without a selector -/

/-- The outcome of a tag is a text, if there is one. -/
def Immediate (r : Render Outcome) : Prop :=
  ∃ q : Render String, r = Outcome.text <$> q

theorem immediate_text (q : Render String) : Immediate (Outcome.text <$> q) :=
  ⟨q, rfl⟩

theorem immediate_throw (e : Failure) : Immediate (throw e) :=
  ⟨throw e, rfl⟩

theorem immediate_bind {α : Type} (r : Render α) {k : α → Render Outcome} (hk : ∀ a, Immediate (k a)) :
    Immediate (r >>= k) := by
  choose q hq using hk
  refine ⟨r >>= q, ?_⟩
  rw [map_bind]
  exact congrArg (r >>= ·) (funext hq)

theorem immediate_resolve {r : Render Outcome} (h : Immediate r) (family : String) (selector selector' : Selector) :
    (r >>= fun outcome => outcome.resolve family selector) = r >>= fun outcome => outcome.resolve family selector' := by
  obtain ⟨q, rfl⟩ := h
  simp only [bind_map_left, Outcome.resolve]

/-- A built-in tag that opens gives its text at once. -/
theorem immediate_of_opening {p : TagPlugin} (hp : p ∈ builtinTags) {t : Tag} (ht : t.role = .opening)
    (s : Scope) (services : Services) (children : ChildrenRenderer) : Immediate (p.render t s services children) := by
  simp only [builtinTags, List.mem_cons, List.not_mem_nil, or_false] at hp
  rcases hp with rfl | rfl | rfl | rfl | rfl | rfl
  · simp only [IfTag.plugin, IfTag.render, ht]
    exact immediate_text _
  · simp only [SwitchTag.plugin, SwitchTag.render, ht]
    exact immediate_bind _ fun _ => immediate_text _
  · simp only [ForTag.plugin, ForTag.render, ht]
    split
    · refine immediate_bind _ fun _ => immediate_bind _ fun items => ?_
      split <;> exact immediate_text _
    · exact immediate_throw _
  · simp only [WithTag.plugin, WithTag.render]
    split
    · exact immediate_bind _ fun _ => immediate_text _
    · exact immediate_throw _
  · simp only [ApplyTag.plugin, ApplyTag.render]
    exact immediate_bind _ fun _ => immediate_bind _ fun _ => immediate_text _
  · simp only [IncludeTag.plugin, IncludeTag.render]
    exact immediate_bind _ fun _ => immediate_bind _ fun _ => immediate_text _

/-! ## Blocks without a selector -/

/-- Only built-in families are registered. -/
def TagRegistry.OnlyBuiltin (registry : TagRegistry) : Prop :=
  ∀ p ∈ registry.plugins, p ∈ builtinTags

theorem onlyBuiltin_builtinRegistry : builtinRegistry.OnlyBuiltin := by
  have hplugins : builtinRegistry.plugins = builtinTags := by with_unfolding_all rfl
  intro p hp
  rwa [hplugins] at hp

variable {registry : TagRegistry} {services : Services} {name : String} {s : Scope}

theorem renderBlock_selector (hreg : registry.Reachable) (hb : registry.OnlyBuiltin) {b : Block}
    (h : Stands registry b) (selector selector' : Selector) :
    renderBlock services name b s selector = renderBlock services name b s selector' := by
  cases b with
  | tag p t cs =>
    obtain ⟨hrole, hroute⟩ := h
    have hp : p ∈ builtinTags := hb p (hreg.route hroute).1
    rw [renderBlock, renderBlock]
    exact congrArg (describeTag name t) (immediate_resolve (immediate_of_opening hp hrole _ _ _) _ _ _)
  | text s => rw [renderBlock, renderBlock]
  | output source line => rw [renderBlock, renderBlock]
  | bare => exact absurd h id

theorem renderBlocks_selector (hreg : registry.Reachable) (hb : registry.OnlyBuiltin) {choice : ChildChoice}
    {bs : List Block} (h : ∀ b ∈ bs, Stands registry b) (selector selector' : Selector) :
    renderBlocks services name choice bs s selector = renderBlocks services name choice bs s selector' := by
  induction bs with
  | nil => rw [renderBlocks, renderBlocks]
  | cons b bs ih =>
    rw [renderBlocks, renderBlocks, renderBlock_selector hreg hb (h b (List.mem_cons_self ..)) selector selector',
      ih fun c hc => h c (List.mem_cons_of_mem _ hc)]

end TemplateEngine

/-
Laws of rendering: rows of blocks are rendered one after the other, and a fault never leaves a block that
can be rendered, since each tag describes those that it lets through.
-/
import TemplateEngine.Template.Render

namespace TemplateEngine

/-! ## Faults -/

/-- Whatever was asked of the loader before, the render does not end in a fault. -/
def NoFault {α : Type} (r : Render α) : Prop :=
  ∀ calls f, ((ExceptT.run r).run calls).1 ≠ .error (.fault f)

/-- A failure as a tag lets it through: a fault becomes an error at the tag. -/
def Failure.atTag (name : String) (t : Tag) : Failure → Failure
  | .fault f => .evaluation (.tagFault ⟨name, t.line⟩ t.markup f)
  | failure => failure

variable {name : String} {t : Tag}

theorem Failure.atTag_of_ne {failure : Failure} (h : ∀ f, failure ≠ .fault f) : failure.atTag name t = failure := by
  cases failure with
  | fault f => exact absurd rfl (h f)
  | template e => rfl
  | expression e => rfl
  | evaluation e => rfl
  | load e => rfl

/-- A fault that leaves a tag has become an error, and all other failures leave it as they are. -/
theorem Failure.atTag_eq_evaluation {failure : Failure} {e : EvalError} (h : failure.atTag name t = .evaluation e) :
    (∃ f, e = .tagFault ⟨name, t.line⟩ t.markup f) ∨ failure = .evaluation e := by
  cases failure with
  | fault f =>
    cases h
    exact .inl ⟨f, rfl⟩
  | template | expression | evaluation | load => exact .inr h

/-- A tag changes only the failure of a render. -/
theorem run_describeTag (r : Render String) (calls : List LoaderCall) :
    (ExceptT.run (describeTag name t r)).run calls =
      (((ExceptT.run r).run calls).1.mapError (Failure.atTag name t), ((ExceptT.run r).run calls).2) := by
  rcases hr : (ExceptT.run r).run calls with ⟨result, calls'⟩
  have htry : (ExceptT.run (describeTag name t r)).run calls = _ :=
    congrArg (StateT.run · calls) (ExceptT.run_tryCatch r _)
  rw [htry, StateT.run_bind, hr]
  cases result with
  | ok text => rfl
  | error failure => cases failure <;> rfl

theorem noFault_describeTag (r : Render String) : NoFault (describeTag name t r) := by
  intro calls f h
  rw [run_describeTag] at h
  cases hr : ((ExceptT.run r).run calls).1 with
  | ok text => rw [hr] at h; cases h
  | error failure => rw [hr] at h; cases failure <;> cases h

/-- Where there is no fault, there is nothing to describe. -/
theorem describeTag_of_noFault {r : Render String} (h : NoFault r) : describeTag name t r = r := by
  refine ExceptT.ext (funext fun calls => ?_)
  show (ExceptT.run (describeTag name t r)).run calls = (ExceptT.run r).run calls
  have hr := h calls
  rw [run_describeTag]
  rcases hrun : (ExceptT.run r).run calls with ⟨result, calls'⟩
  rw [hrun] at hr
  cases result with
  | ok text => rfl
  | error failure =>
    have hne : failure.atTag name t = failure := Failure.atTag_of_ne fun f h => hr f (congrArg Except.error h)
    exact congrArg (fun failure => (Except.error failure, calls')) hne

theorem describeTag_throw (failure : Failure) :
    describeTag name t (throw failure) = throw (failure.atTag name t) := by
  cases failure <;> rfl

theorem ofResult_ok {α : Type} (a : α) : Render.ofResult (.ok a) = pure a := rfl

theorem ofResult_error {α : Type} (e : Failure) : (Render.ofResult (.error e) : Render α) = throw e := rfl

theorem throw_bind {α β : Type} (e : Failure) (k : α → Render β) : (throw e >>= k : Render β) = throw e := rfl

/-- What fails without a fault needs no description. -/
theorem describeTag_bind {α : Type} {r : Render α} (hr : NoFault r) (k : α → Render String) :
    describeTag name t (r >>= k) = r >>= fun a => describeTag name t (k a) := by
  refine ExceptT.ext (funext fun calls => ?_)
  show (ExceptT.run (describeTag name t (r >>= k))).run calls =
    (ExceptT.run (r >>= fun a => describeTag name t (k a))).run calls
  have hr := hr calls
  rw [run_describeTag, ExceptT.run_bind, ExceptT.run_bind, StateT.run_bind, StateT.run_bind]
  rcases hrun : (ExceptT.run r).run calls with ⟨result, calls'⟩
  rw [hrun] at hr
  cases result with
  | ok a => exact (run_describeTag (k a) calls').symm
  | error failure =>
    have hne : failure.atTag name t = failure := Failure.atTag_of_ne fun f h => hr f (congrArg Except.error h)
    exact congrArg (fun failure => (Except.error failure, calls')) hne

theorem describeTag_ofResult_bind {α : Type} (r : Except Failure α) (k : α → Render String) :
    describeTag name t (Render.ofResult r >>= k) =
      Render.ofResult (r.mapError (Failure.atTag name t)) >>= fun a => describeTag name t (k a) := by
  cases r with
  | ok a => rfl
  | error failure => exact describeTag_throw failure

theorem describeTag_map (f : String → String) (r : Render String) :
    describeTag name t (f <$> r) = f <$> describeTag name t r := by
  refine ExceptT.ext (funext fun calls => ?_)
  show (ExceptT.run (describeTag name t (f <$> r))).run calls = (ExceptT.run (f <$> describeTag name t r)).run calls
  rw [run_describeTag, ExceptT.run_map, ExceptT.run_map, StateT.run_map, StateT.run_map, run_describeTag]
  rcases (ExceptT.run r).run calls with ⟨result, calls'⟩
  cases result <;> rfl

theorem noFault_pure {α : Type} (a : α) : NoFault (pure a : Render α) := by
  intro calls f h
  cases h

theorem noFault_bind_of_ok {α β : Type} {r : Render α} {k : α → Render β} (hr : NoFault r)
    (hk : ∀ a calls, ((ExceptT.run r).run calls).1 = .ok a → NoFault (k a)) : NoFault (r >>= k) := by
  intro calls f h
  have hr := hr calls
  have hk := fun a => hk a calls
  rw [ExceptT.run_bind, StateT.run_bind] at h
  rcases hrun : (ExceptT.run r).run calls with ⟨result, calls'⟩
  rw [hrun] at h hr hk
  cases result with
  | ok a => exact hk a rfl calls' f h
  | error failure =>
    cases h
    exact hr f rfl

theorem noFault_bind {α β : Type} {r : Render α} {k : α → Render β} (hr : NoFault r) (hk : ∀ a, NoFault (k a)) :
    NoFault (r >>= k) :=
  noFault_bind_of_ok hr fun a _ _ => hk a

theorem noFault_ofResult {α : Type} {r : Except Failure α} (h : ∀ f, r ≠ .error (.fault f)) :
    NoFault (Render.ofResult r) :=
  fun _ f => h f

theorem noFault_outputText (services : Services) (source : String) (line : Nat) (s : Scope) :
    NoFault (outputText services name source line s) := by
  refine noFault_ofResult fun f h => ?_
  split at h <;> simp_all

/-! ## Rows of blocks -/

section

variable {services : Services} {choice : ChildChoice} {s : Scope} {selector : Selector}

theorem noFault_renderBlock {b : Block} (hb : b ≠ .bare) : NoFault (renderBlock services name b s selector) := by
  cases b with
  | text s => exact noFault_pure s
  | output source line => exact noFault_outputText services source line s
  | tag p t cs =>
    rw [renderBlock]
    exact noFault_describeTag _
  | bare => exact absurd rfl hb

theorem noFault_renderBlocks {bs : List Block} (hb : ∀ b ∈ bs, b ≠ .bare) :
    NoFault (renderBlocks services name choice bs s selector) := by
  induction bs with
  | nil => exact noFault_pure ""
  | cons b bs ih =>
    have hrest := ih fun c hc => hb c (List.mem_cons_of_mem _ hc)
    rw [renderBlocks]
    split
    · exact hrest
    · exact noFault_bind (noFault_renderBlock (hb b (List.mem_cons_self ..))) fun _ =>
        noFault_bind hrest fun _ => noFault_pure _

theorem renderBlocks_cons {b : Block} (hb : choice = .insideTags → b.isInside = true) (bs : List Block) :
    renderBlocks services name choice (b :: bs) s selector = (do
      let text ← renderBlock services name b s selector
      let rest ← renderBlocks services name choice bs s selector
      return text ++ rest) := by
  rw [renderBlocks, if_neg (by simpa using hb)]

theorem renderBlocks_append (bs cs : List Block) :
    renderBlocks services name choice (bs ++ cs) s selector = (do
      let text ← renderBlocks services name choice bs s selector
      let rest ← renderBlocks services name choice cs s selector
      return text ++ rest) := by
  induction bs with
  | nil =>
    rw [List.nil_append, renderBlocks, pure_bind]
    simp only [String.empty_append, bind_pure]
  | cons b bs ih =>
    rw [List.cons_append, renderBlocks, renderBlocks, ih]
    split
    · rfl
    · simp only [bind_assoc, pure_bind, String.append_assoc]

/-- Among inside tags, blocks that are none are passed over. -/
theorem renderBlocks_insideTags {bs : List Block} (hb : ∀ b ∈ bs, b.isInside = false) :
    renderBlocks services name .insideTags bs s selector = return "" := by
  induction bs with
  | nil => rw [renderBlocks]
  | cons b bs ih =>
    rw [renderBlocks, if_pos ⟨rfl, by rw [hb b (List.mem_cons_self ..)]; rfl⟩]
    exact ih fun c hc => hb c (List.mem_cons_of_mem _ hc)

theorem renderBlocks_singleton {b : Block} (hb : choice = .all ∨ b.isInside = true) :
    renderBlocks services name choice [b] s selector = renderBlock services name b s selector := by
  rw [renderBlocks, if_neg (by rcases hb with rfl | h <;> simp [*])]
  simp [renderBlocks]

end

/-! ## Rows with the same renders -/

/-- Two rows that are rendered in the same way, whatever they are given. -/
def RowsSame (bs bs' : List Block) : Prop :=
  ∀ services name choice s selector,
    renderBlocks services name choice bs s selector = renderBlocks services name choice bs' s selector

theorem RowsSame.append {bs bs' cs cs' : List Block} (hb : RowsSame bs bs') (hc : RowsSame cs cs') :
    RowsSame (bs ++ cs) (bs' ++ cs') := by
  intro services name choice s selector
  rw [renderBlocks_append, renderBlocks_append, hb, hc]

/-- A tag sees its children through their renders. -/
theorem RowsSame.tag (p : TagPlugin) (t : Tag) {cs cs' : List Block} (hc : RowsSame cs cs') :
    RowsSame [.tag p t cs] [.tag p t cs'] := by
  intro services name choice s selector
  have hrow : ∀ choice s selector,
      renderBlocks services name choice cs s selector = renderBlocks services name choice cs' s selector :=
    hc services name
  have hblock : renderBlock services name (.tag p t cs) s selector =
      renderBlock services name (.tag p t cs') s selector := by
    rw [renderBlock, renderBlock]
    simp only [hrow]
  rw [renderBlocks, renderBlocks, hblock]
  rfl

/-- Texts that meet are as good as one. -/
theorem rowsSame_texts (a b : String) : RowsSame [.text a, .text b] [.text (a ++ b)] := by
  intro services name choice s selector
  cases choice <;> simp [renderBlocks, renderBlock, Block.isInside]

end TemplateEngine

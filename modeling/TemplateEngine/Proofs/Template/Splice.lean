/-
Pieces that take the place of other pieces. What is read after some pieces depends on what these have been
read to, and not on the pieces themselves: where both add a row of constructs in the content, the rest is
read in the same way. So texts that are put together are read as one after the other.
-/
import TemplateEngine.Proofs.Template.Junction
import TemplateEngine.Proofs.Template.Reading
import TemplateEngine.Proofs.Template.Reread

namespace TemplateEngine.Template

/-! ## Numbered pieces -/

/-- The tokens of pieces are the same on all lines. -/
theorem alike_number {lines : Nat → Nat → Prop} {line line' : Nat} (h : ∀ n, lines (line + n) (line' + n))
    (ps : List Piece) : (number line ps).Forall₂ (Token.Alike lines) (number line' ps) := by
  induction ps generalizing line line' with
  | nil => exact .nil
  | cons p ps ih =>
    refine .cons ⟨rfl, rfl, h 0⟩ (ih fun n => ?_)
    rw [Nat.add_assoc, Nat.add_assoc]
    exact h _

/-! ## Contexts along a run -/

/-- The contexts after some tokens. -/
def ContextStack.feedAll (c : ContextStack) (ts : List Token) : ContextStack :=
  ts.foldl (fun c t => (c.feed t).2) c

/-- A text leaves the contexts as they are. -/
theorem ContextStack.top_feedAll_text (c : ContextStack) (ts : List Token) {t : Token} (ht : t.kind = .text) :
    (c.feedAll (ts ++ [t])).top = (c.feedAll ts).top := by
  unfold feedAll
  rw [List.foldl_append, List.foldl_cons, List.foldl_nil, feed, ht]
  rfl

/-- The content is innermost after some pieces. -/
def EndsInContent (ps : List Piece) : Prop :=
  (ContextStack.feedAll {} (number 1 ps)).top = .content

theorem endsInContent_text {ps : List Piece} {cs : List Char} :
    EndsInContent (ps ++ [.text cs]) ↔ EndsInContent ps := by
  unfold EndsInContent
  rw [number_append]
  exact Eq.congr_left (ContextStack.top_feedAll_text _ _ rfl)

/-- Whether it is does not depend on a text at the end. -/
theorem endsInContent_glue {ps : List Piece} {cs : List Char} :
    EndsInContent (glue ps [.text cs]) ↔ EndsInContent ps := by
  rcases glue_eq ps [.text cs] with h | ⟨front, ds, es, rest, rfl, hq, h⟩
  · rw [h, endsInContent_text]
  · cases hq
    rw [h, endsInContent_text, endsInContent_text]

namespace Reader

variable {registry : TagRegistry} {name : String} {r r' : Reader} {t : Token}

theorem standing_of_placeTag {route : TagRoute} {tag : Tag} (h : placeTag name route tag r = .ok r') :
    r'.contexts = r.contexts ∧ r'.payload = r.payload := by
  obtain ⟨p, role⟩ := route
  cases role with
  | opening =>
    rw [placeTag_opening] at h
    cases h
    split <;> exact ⟨rfl, rfl⟩
  | inside =>
    obtain ⟨-, rfl⟩ := placeTag_inside.1 h
    exact ⟨rfl, rfl⟩
  | closing =>
    obtain ⟨-, -, -, rfl⟩ := placeTag_closing.1 h
    exact ⟨rfl, rfl⟩

/-- What is open is one of four stacks of contexts; in the content and in a comment no payload is kept. -/
inductive Steady (r : Reader) : Prop
  | content (h : r.contexts.contexts = [.content]) (hp : r.payload = none)
  | comment (h : r.contexts.contexts = [.comment, .content]) (hp : r.payload = none)
  | output (h : r.contexts.contexts = [.expression, .content])
  | tag (h : r.contexts.contexts = [.tag, .content])

theorem steady_of_step (h : r.Steady) (hs : step registry name r t = .ok r') : r'.Steady := by
  cases h with
  | content h hp =>
    rw [step_content h] at hs
    split at hs
    · cases hs; exact .content rfl hp
    · cases hs; exact .tag rfl
    · cases hs; exact .output rfl
    · cases hs; exact .comment rfl hp
    · cases hs
  | comment h hp =>
    rw [step_comment h] at hs
    cases hs
    split
    · exact .content rfl hp
    · exact .comment rfl hp
  | output h =>
    rw [step_expression h] at hs
    split at hs
    · cases hs; exact .output rfl
    · obtain ⟨p, -, -, rfl⟩ := addOutput_eq_ok.1 hs
      exact .content rfl rfl
    · cases hs
  | tag h =>
    rw [step_tag h] at hs
    split at hs
    · cases hs; exact .tag rfl
    · obtain ⟨p, route, tag, -, -, -, -, -, -, -, hplace⟩ := addTag_eq_ok.1 hs
      obtain ⟨hc, hp⟩ := standing_of_placeTag hplace
      exact .content (congrArg (·.contexts) hc) hp
    · cases hs

/-- The contexts of a reader follow the tokens. -/
theorem contexts_of_step (hs : step registry name r t = .ok r') : r'.contexts = (r.contexts.feed t).2 := by
  unfold step at hs
  rcases hf : r.contexts.feed t with ⟨result, c⟩
  rw [hf] at hs
  cases result with
  | error problem => cases hs
  | ok owner =>
    dsimp only at hs
    split at hs
    · cases hs; rfl
    · cases hs; rfl
    · cases hs; rfl
    · obtain ⟨p, -, -, rfl⟩ := addOutput_eq_ok.1 hs
      rfl
    · obtain ⟨p, route, tag, -, -, -, -, -, -, -, hplace⟩ := addTag_eq_ok.1 hs
      exact (standing_of_placeTag hplace).1
    · cases hs; rfl

/-- By induction on the tokens. -/
theorem Steady.run (h : r.Steady) {ts : List Token} (hs : ts.foldlM (step registry name) r = .ok r') :
    r'.Steady ∧ r'.contexts = r.contexts.feedAll ts := by
  induction ts generalizing r with
  | nil =>
    cases hs
    exact ⟨h, rfl⟩
  | cons t ts ih =>
    rw [List.foldlM_cons] at hs
    obtain ⟨r₁, h₁, hs⟩ := bind_eq_ok.1 hs
    obtain ⟨hr', hc⟩ := ih (steady_of_step h h₁) hs
    rw [contexts_of_step h₁] at hc
    exact ⟨hr', hc⟩

/-- After pieces that end in the content a reader stands between two constructs. -/
theorem between_of_run {ps : List Piece} (hps : EndsInContent ps)
    (hs : (number 1 ps).foldlM (step registry name) {} = .ok r) : Between (r.openTags, r.blocks) r := by
  have hstart : Steady {} := .content rfl rfl
  obtain ⟨hr, hc⟩ := hstart.run hs
  have htop : r.contexts.top = .content := by rw [hc]; exact hps
  cases hr with
  | content h hp => exact ⟨h, hp, rfl, rfl⟩
  | comment h hp => rw [ContextStack.top, h] at htop; cases htop
  | output h => rw [ContextStack.top, h] at htop; cases htop
  | tag h => rw [ContextStack.top, h] at htop; cases htop

end Reader

/-! ## What pieces are read to -/

variable {K : RowCongruence} {registry : TagRegistry} {name name' : String} {bs : List Block}

/-- Pieces that can be read end in the content. -/
theorem Gives.endsInContent {ps : List Piece} (h : Gives registry name ps bs) : EndsInContent ps := by
  obtain ⟨r, hr, hf⟩ := h
  have hstart : Reader.Steady {} := .content rfl rfl
  obtain ⟨hr', hc⟩ := hstart.run hr
  obtain ⟨hd, -, -⟩ := Reader.finish_eq_ok.1 hf
  rw [EndsInContent, ← hc, ContextStack.top]
  cases hr' with
  | content h _ => rw [h]; rfl
  | comment h _ => rw [ContextStack.depth, h] at hd; cases hd
  | output h => rw [ContextStack.depth, h] at hd; cases hd
  | tag h => rw [ContextStack.depth, h] at hd; cases hd

/-- Rows of constructs may be put behind pieces that can be read. -/
theorem Gives.append {ps qs : List Piece} {cs : List Block} (h : Gives registry name ps bs)
    (hc : Content registry name (number (1 + lineEnds (Piece.spelling ps)) qs) cs) :
    Gives registry name (ps ++ qs) (bs ++ cs) := by
  have hends := h.endsInContent
  obtain ⟨r, hr, hf⟩ := h
  obtain ⟨-, ho, rfl⟩ := Reader.finish_eq_ok.1 hf
  obtain ⟨r', hr', hb⟩ := hc.runs _ r (Reader.between_of_run hends hr)
  refine ⟨r', ?_, Reader.finish_eq_ok.2 ⟨?_, hb.openTags.trans ho, ?_⟩⟩
  · rw [number_append, List.foldlM_append, hr]
    exact hr'
  · rw [ContextStack.depth, hb.contexts]
    rfl
  · rw [hb.blocks, List.reverse_append, List.reverse_reverse]

section

variable (hK : K.Covers registry)

include hK

/-- The pieces of a template are a row of constructs from any line on, in a template of any name. -/
theorem content_of_read (hn : K.Names name name') {text : String} {t : Template}
    (h : Template.read registry text name = .ok t) (line : Nat) (hl : ∀ n, K.Lines (1 + n) (line + n)) :
    ∃ bs, Content registry name' (number line (pieces text.toList)) bs ∧ K.Rows t.blocks bs := by
  obtain ⟨-, r, hr, hf⟩ := read_eq_ok_gives.1 h
  obtain ⟨r', hr', halike⟩ := Reader.alike_start.run hK hn (alike_number hl _) hr
  obtain ⟨bs, hf', hrows⟩ := halike.finish name' hf
  have hstart : Amounts registry name' [] {} := .between (.content .nil) ⟨rfl, rfl, rfl, rfl⟩
  have hapart : ((number line (pieces text.toList)).map (·.kind)).IsChain TokenKind.Apart := by
    rw [map_kind_number]
    exact pieces_apart _
  exact ⟨bs, (hstart.run hapart hr').content hf', hrows⟩

/-- Pieces that are rows of constructs may take each other's place in the content. The lines of what stands behind
them change by as many as they differ in. -/
theorem Gives.replace (hn : K.Names name name) (hl : ∀ line, K.Lines line line) {ps xs xs' qs : List Piece}
    (hshift : ∀ line, 1 + lineEnds (Piece.spelling ps) ≤ line →
      K.Lines (line + lineEnds (Piece.spelling xs)) (line + lineEnds (Piece.spelling xs')))
    (hps : EndsInContent ps)
    (hx : ∀ line, ∃ cs cs', Content registry name (number line xs) cs ∧ Content registry name (number line xs') cs' ∧
      K.Rows cs cs')
    (h : Gives registry name (ps ++ (xs ++ qs)) bs) :
    EndsInContent (ps ++ xs') ∧ ∃ bs', Gives registry name (ps ++ (xs' ++ qs)) bs' ∧ K.Rows bs bs' := by
  obtain ⟨rq, hq, hf⟩ := h
  rw [number_append, number_append, List.foldlM_append] at hq
  obtain ⟨rp, hp, hq⟩ := bind_eq_ok.1 hq
  rw [List.foldlM_append] at hq
  obtain ⟨rx, hxs, hq⟩ := bind_eq_ok.1 hq
  have hbetween := Reader.between_of_run hps hp
  -- the pieces start on the line on which those before them end
  obtain ⟨cs, cs', hcs, hcs', hrow⟩ := hx (1 + lineEnds (Piece.spelling ps))
  obtain ⟨rx₀, hxs₀, hbx⟩ := hcs.runs _ rp hbetween
  cases hxs.symm.trans hxs₀
  obtain ⟨rx', hxs', hbx'⟩ := hcs'.runs _ rp hbetween
  -- up to here both readers are the same one, which is related to itself
  have hstart : Reader.Alike K {} {} := Reader.alike_start
  obtain ⟨rp₀, hp₀, hself⟩ := hstart.run hK hn (alike_number (fun n => hl _) ps) hp
  cases hp.symm.trans hp₀
  have halike : Reader.Alike K rx rx' := by
    refine ⟨hbx'.contexts.trans hbx.contexts.symm, ?_, ?_, ?_⟩
    · rw [hbx.payload, hbx'.payload]
      exact .none
    · rw [hbx.openTags, hbx'.openTags]
      exact hself.openTags
    · rw [hbx.blocks, hbx'.blocks, List.reverse_append, List.reverse_append, List.reverse_reverse,
        List.reverse_reverse]
      exact K.append hself.blocks hrow
  have hqs : (number (1 + lineEnds (Piece.spelling ps) + lineEnds (Piece.spelling xs)) qs).Forall₂ (Token.Alike K.Lines)
      (number (1 + lineEnds (Piece.spelling ps) + lineEnds (Piece.spelling xs')) qs) := by
    refine alike_number (fun n => ?_) qs
    rw [Nat.add_right_comm, Nat.add_right_comm _ (lineEnds (Piece.spelling xs')) n]
    exact hshift _ (Nat.le_add_right _ n)
  obtain ⟨rq', hq', hrq⟩ := halike.run hK hn hqs hq
  obtain ⟨bs', hf', hrows⟩ := hrq.finish name hf
  have hpx : (number 1 (ps ++ xs')).foldlM (Reader.step registry name) {} = .ok rx' := by
    rw [number_append, List.foldlM_append, hp]
    exact hxs'
  refine ⟨?_, bs', ⟨rq', ?_, hf'⟩, hrows⟩
  · have hstart : Reader.Steady {} := .content rfl rfl
    rw [EndsInContent, ← (hstart.run hpx).2, ContextStack.top, hbx'.contexts]
    rfl
  · rw [number_append, number_append, List.foldlM_append, hp, ok_bind, List.foldlM_append, hxs']
    exact hq'

end

/-! ## Texts that become one -/

/-- Two texts in the content are as good as one. -/
theorem content_texts (registry : TagRegistry) (name : String) (cs ds : List Char) (line : Nat) :
    ∃ us us', Content registry name (number line [.text cs, .text ds]) us ∧
      Content registry name (number line [.text (cs ++ ds)]) us' ∧ RowsSame us us' := by
  refine ⟨_, _, .snoc (.snoc .nil (.text rfl)) (.text rfl), .snoc .nil (.text rfl), ?_⟩
  have hjoined := rowsSame_texts (String.ofList cs) (String.ofList ds)
  rwa [← String.ofList_append] at hjoined

theorem lineEnds_texts (cs ds : List Char) :
    lineEnds (Piece.spelling [.text cs, .text ds]) = lineEnds (Piece.spelling [.text (cs ++ ds)]) := by
  simp [Piece.spelling, Piece.chars]

/-- Texts that meet in the content may be read as one. -/
theorem Gives.glue {xs ps qs : List Piece} (hps : EndsInContent (xs ++ ps))
    (h : Gives registry name (xs ++ (ps ++ qs)) bs) :
    ∃ bs', Gives registry name (xs ++ Template.glue ps qs) bs' ∧ RowsSame bs bs' := by
  rcases glue_eq ps qs with hg | ⟨front, cs, ds, rest, rfl, rfl, hg⟩
  · exact ⟨bs, by rwa [hg], fun _ _ _ _ _ => rfl⟩
  · rw [← List.append_assoc, endsInContent_text] at hps
    obtain ⟨-, bs', hbs', hrows⟩ := Gives.replace (RowsSame.covers registry) rfl (fun _ => rfl)
      (fun line _ => congrArg (line + ·) (lineEnds_texts cs ds)) hps (content_texts registry name cs ds)
      (by simpa using h)
    exact ⟨bs', by simpa [hg] using hbs', hrows⟩

/-- A text in the content may be read as two. -/
theorem Gives.unglue {ps qs : List Piece} (hps : EndsInContent ps) (h : Gives registry name (Template.glue ps qs) bs) :
    ∃ bs', Gives registry name (ps ++ qs) bs' ∧ RowsSame bs bs' := by
  rcases glue_eq ps qs with hg | ⟨front, cs, ds, rest, rfl, rfl, hg⟩
  · exact ⟨bs, by rwa [← hg], fun _ _ _ _ _ => rfl⟩
  · rw [endsInContent_text] at hps
    rw [hg] at h
    have hx : ∀ line, ∃ us us', Content registry name (number line [.text (cs ++ ds)]) us ∧
        Content registry name (number line [.text cs, .text ds]) us' ∧ RowsSame us us' := by
      intro line
      obtain ⟨us, us', hus, hus', hsame⟩ := content_texts registry name cs ds line
      exact ⟨us', us, hus', hus, fun _ _ _ _ _ => (hsame _ _ _ _ _).symm⟩
    obtain ⟨-, bs', hbs', hrows⟩ := Gives.replace (RowsSame.covers registry) rfl (fun _ => rfl)
      (fun line _ => congrArg (line + ·) (lineEnds_texts cs ds).symm) hps hx (by simpa using h)
    exact ⟨bs', by simpa using hbs', hrows⟩

end TemplateEngine.Template

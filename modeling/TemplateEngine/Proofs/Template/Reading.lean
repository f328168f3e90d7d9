/-
Reading accepts exactly the grammar, and gives the blocks of the derivation.

One direction runs the reader along a derivation: between two constructs it stands in the content with
nothing left over, and a construct adds its blocks. The other direction keeps, token after token, what
the tokens read so far amount to: a row of derivations, one for the root and one for each open block,
and the beginning of a construct.
-/
import TemplateEngine.Proofs.Template.Step

namespace TemplateEngine.Template

open Reader

variable {registry : TagRegistry} {name : String}

/-! ## From derivations to runs -/

/-- A reader with its contexts, the content of an open output or tag, the open tags and the blocks of the
innermost one. -/
structure Standing (contexts : List Context) (payload : Option Token) (s : List OpenTag × List Block)
    (r : Reader) : Prop where
  contexts : r.contexts.contexts = contexts
  payload : r.payload = payload
  openTags : r.openTags = s.1
  blocks : r.blocks = s.2

/-- A reader that stands between two constructs. -/
abbrev Between (s : List OpenTag × List Block) (r : Reader) : Prop :=
  Standing [.content] none s r

/-- Taking tokens in, one after the other, leads from one state between constructs to another one. -/
def Runs (registry : TagRegistry) (name : String) (ts : List Token) (s s' : List OpenTag × List Block) : Prop :=
  ∀ r, Between s r → ∃ r', ts.foldlM (step registry name) r = .ok r' ∧ Between s' r'

theorem Runs.nil {s : List OpenTag × List Block} : Runs registry name [] s s :=
  fun r h => ⟨r, rfl, h⟩

theorem Runs.append {ts us : List Token} {s s' s'' : List OpenTag × List Block} (h : Runs registry name ts s s')
    (h' : Runs registry name us s' s'') : Runs registry name (ts ++ us) s s'' := by
  intro r hr
  obtain ⟨r', hr', hb⟩ := h r hr
  obtain ⟨r'', hr'', hb'⟩ := h' r' hb
  exact ⟨r'', by rw [List.foldlM_append, hr']; exact hr'', hb'⟩

theorem runs_text {t : Token} (ht : t.kind = .text) (s : List OpenTag × List Block) :
    Runs registry name [t] s (s.1, .text t.value :: s.2) := by
  intro r hr
  refine ⟨(r.moved t [.content]).add (.text t.value), ?_, rfl, hr.payload, hr.openTags,
    congrArg (_ :: ·) hr.blocks⟩
  rw [List.foldlM_cons, step_content hr.contexts, ht]
  rfl

/-- In a comment all tokens but the closing delimiter are passed over. -/
theorem foldlM_comment {ts : List Token} (hts : ∀ t ∈ ts, t.kind ≠ .delimiter .commentClose) (r : Reader)
    (hr : r.contexts.contexts = [.comment, .content]) :
    ∃ line, ts.foldlM (step registry name) r = .ok { r with contexts := ⟨[.comment, .content], line⟩ } := by
  induction ts generalizing r with
  | nil => exact ⟨r.contexts.line, by rw [← hr]; rfl⟩
  | cons t ts ih =>
    rw [List.foldlM_cons, step_comment hr, if_neg (hts t (List.mem_cons_self ..))]
    exact ih (fun u hu => hts u (List.mem_cons_of_mem _ hu)) (r.moved t _) rfl

theorem runs_comment {ts : List Token} (h : Comment ts) (s : List OpenTag × List Block) :
    Runs registry name ts s s := by
  intro r hr
  obtain ⟨ho, hi, hc⟩ := h
  rename_i o c inner
  obtain ⟨line, hline⟩ : ∃ line, inner.foldlM (step registry name) (r.moved o [.comment, .content]) =
      .ok { r.moved o [.comment, .content] with contexts := ⟨[.comment, .content], line⟩ } :=
    foldlM_comment hi _ rfl
  refine ⟨r.moved c [.content], ?_, rfl, hr.payload, hr.openTags, hr.blocks⟩
  rw [List.foldlM_cons, step_content hr.contexts, ho]
  show List.foldlM _ _ (inner ++ [c]) = _
  rw [List.foldlM_append, hline, ok_bind, List.foldlM_cons, step_comment rfl, if_pos hc]
  rfl

theorem runs_output {p : Token} {ts : List Token} (h : Enclosed .outputOpen .outputClose p ts)
    (hp : Text.blank p.value = false) (s : List OpenTag × List Block) :
    Runs registry name ts s (s.1, .output (Text.trim p.value) p.line :: s.2) := by
  intro r hr
  obtain ⟨ho, ht, hc⟩ := h
  rename_i o c
  let closed : Reader :=
    { (r.moved o [.expression, .content]).moved p [.expression, .content] with payload := some p }.moved c [.content]
  let r' : Reader := { closed with payload := none }.add (.output (Text.trim p.value) p.line)
  have hout : closed.addOutput name c = .ok r' := addOutput_eq_ok.2 ⟨p, rfl, hp, rfl⟩
  refine ⟨r', ?_, rfl, rfl, hr.openTags, congrArg (_ :: ·) hr.blocks⟩
  rw [List.foldlM_cons, step_content hr.contexts, ho, ok_bind, List.foldlM_cons, step_expression rfl, ht, ok_bind,
    List.foldlM_cons, step_expression rfl, hc, hout]
  rfl

/-- The tokens of a tag put it into its place. -/
theorem foldlM_tag {ts : List Token} {route : TagRoute} {t : Tag} (h : TagTokens registry name ts route t)
    {s : List OpenTag × List Block} {r : Reader} (hr : Between s r) :
    ∃ r', Between s r' ∧ ∀ r'', placeTag name route t r' = .ok r'' →
      ts.foldlM (step registry name) r = .ok r'' := by
  obtain ⟨p, ⟨ho, ht, hc⟩, hm, hl⟩ := h.tokens
  rename_i o c
  refine ⟨{ r with contexts := ⟨[.content], c.line⟩, payload := none }, ⟨rfl, rfl, hr.openTags, hr.blocks⟩, ?_⟩
  intro r'' hplace
  let closed : Reader :=
    { (r.moved o [.tag, .content]).moved p [.tag, .content] with payload := some p }.moved c [.content]
  have hadd : closed.addTag registry name c = .ok r'' :=
    addTag_eq_ok.2 ⟨p, route, t, rfl, hm, h.routed, h.role, h.reads, h.template, hl, hplace⟩
  rw [List.foldlM_cons, step_content hr.contexts, ho, ok_bind, List.foldlM_cons, step_tag rfl, ht, ok_bind,
    List.foldlM_cons, step_tag rfl, hc, hadd]
  rfl

theorem runs_singular {ts : List Token} {p : TagPlugin} {t : Tag}
    (h : TagTokens registry name ts ⟨p, .opening⟩ t) (hp : p.singular = true) (s : List OpenTag × List Block) :
    Runs registry name ts s (s.1, .tag p t [] :: s.2) := by
  intro r hr
  obtain ⟨r', hb, hrun⟩ := foldlM_tag h hr
  refine ⟨r'.add (.tag p t []), hrun _ ?_, hb.contexts, hb.payload, hb.openTags, congrArg (_ :: ·) hb.blocks⟩
  rw [placeTag_opening, if_pos hp]

theorem runs_start {ts : List Token} {p : TagPlugin} {t : Tag}
    (h : TagTokens registry name ts ⟨p, .opening⟩ t) (hp : p.singular = false) (s : List OpenTag × List Block) :
    Runs registry name ts s (⟨p, t, s.2⟩ :: s.1, []) := by
  intro r hr
  obtain ⟨r', hb, hrun⟩ := foldlM_tag h hr
  refine ⟨r'.enter p t, hrun _ ?_, hb.contexts, hb.payload, ?_, rfl⟩
  · rw [placeTag_opening, hp]; rfl
  · show ⟨p, t, r'.blocks⟩ :: r'.openTags = _
    rw [hb.blocks, hb.openTags]

theorem runs_inside {ts : List Token} {p : TagPlugin} {t : Tag}
    (h : TagTokens registry name ts ⟨p, .inside⟩ t) {s : List OpenTag × List Block} (hs : Admits p.family s.1) :
    Runs registry name ts s (⟨p, t, s.2⟩ :: s.1, []) := by
  intro r hr
  obtain ⟨r', hb, hrun⟩ := foldlM_tag h hr
  refine ⟨r'.enter p t, hrun _ (placeTag_inside.2 ⟨by rw [hb.openTags]; exact hs, rfl⟩), hb.contexts,
    hb.payload, ?_, rfl⟩
  show ⟨p, t, r'.blocks⟩ :: r'.openTags = _
  rw [hb.blocks, hb.openTags]

theorem runs_close {ts : List Token} {p : TagPlugin} {t : Tag} (h : TagTokens registry name ts ⟨p, .closing⟩ t)
    {s s' : List OpenTag × List Block} (hs : closeFamily? p.family s.1 s.2 = some s') :
    Runs registry name ts s s' := by
  intro r hr
  obtain ⟨r', hb, hrun⟩ := foldlM_tag h hr
  exact ⟨_, hrun _ (placeTag_closing.2 ⟨s'.1, s'.2, by rw [hb.openTags, hb.blocks]; exact hs, rfl⟩), hb.contexts,
    hb.payload, rfl, rfl⟩

/-- Below the branches of a block there is a place for one more, if the last of them is not final. -/
theorem admits_opened {family : String} {s : List OpenTag × List Block} (hs : Admits family s.1)
    {branches : List Branch} (hf : ∀ b ∈ branches, b.plugin.family = family)
    (hn : ∀ b ∈ branches, b.tag.name ∉ b.plugin.finalNames) : Admits family (opened s branches).1 := by
  induction branches using List.reverseRecOn with
  | nil => exact hs
  | append_singleton branches b ih =>
    rw [opened_concat]
    exact ⟨_, _, rfl, hf b (by simp), fun h => hn b (by simp) h.2⟩

mutual

/-- A construct adds its blocks. -/
theorem Construct.runs {ts : List Token} {bs : List Block} (s : List OpenTag × List Block) :
    Construct registry name ts bs → Runs registry name ts s (s.1, bs.reverse ++ s.2)
  | .text h => runs_text h s
  | .comment h => runs_comment h s
  | .output h hp => runs_output h hp s
  | .singular h hp => runs_singular h hp s
  | .block h hp hb hi hc hq => by
    rename_i p q t c start body inner close bs branches
    -- the opening tag stays open until the closing one, which closes all branches above it at once
    have hadmits : Admits p.family (⟨p, t, s.2⟩ :: s.1) :=
      ⟨_, _, rfl, rfl, fun h' => by rw [h.role] at h'; cases h'.1⟩
    have hbody := hb.runs (⟨p, t, s.2⟩ :: s.1, [])
    have hinner : Runs registry name inner (⟨p, t, s.2⟩ :: s.1, bs.reverse) (opened s (⟨p, t, bs⟩ :: branches)) :=
      hi.runs hadmits
    have hclose : closeFamily? q.family (opened s (⟨p, t, bs⟩ :: branches)).1
        (opened s (⟨p, t, bs⟩ :: branches)).2 = some (s.1, (nest (⟨p, t, bs⟩ :: branches)).reverse ++ s.2) := by
      rw [hq]
      exact closeFamily?_opened (b := ⟨p, t, bs⟩) h.role rfl branches hi.branch []
    rw [List.append_nil] at hbody
    exact (((runs_start h hp s).append hbody).append hinner).append (runs_close hc hclose)

/-- A row of constructs adds its blocks. -/
theorem Content.runs {ts : List Token} {bs : List Block} (s : List OpenTag × List Block) :
    Content registry name ts bs → Runs registry name ts s (s.1, bs.reverse ++ s.2)
  | .nil => Runs.nil
  | .snoc h hc => by
    rw [List.reverse_append, List.append_assoc]
    exact (h.runs s).append (hc.runs _)

/-- Inside tags open their branches. -/
theorem Insides.runs {family : String} {ts : List Token} {branches : List Branch}
    {s : List OpenTag × List Block} (hs : Admits family s.1) :
    Insides registry name family ts branches → Runs registry name ts s (opened s branches)
  | .nil => Runs.nil
  | .snoc h hf ht hp hb => by
    rename_i ts us body branches p t bs
    have hadmits : Admits p.family (opened s branches).1 := by
      rw [hp]
      exact admits_opened hs (fun b hb => (h.branch b hb).2) hf
    have hbody := hb.runs (⟨p, t, (opened s branches).2⟩ :: (opened s branches).1, [])
    rw [List.append_nil] at hbody
    rw [opened_concat]
    exact ((h.runs hs).append (runs_inside ht hadmits)).append hbody

end

/-! ## From runs to derivations -/

/-- The tokens behind a stack of open tags: a row of constructs for the root, and for each open block
its opening tag, what follows it, and the branches that have been opened. -/
inductive Frames (registry : TagRegistry) (name : String) : List Token → List OpenTag × List Block → Prop
  | content {ts : List Token} {bs : List Block} (h : Content registry name ts bs) :
      Frames registry name ts ([], bs.reverse)
  | block {ts start body inner : List Token} {s s' : List OpenTag × List Block} {p : TagPlugin} {t : Tag}
      {bs : List Block} {branches : List Branch} (h : Frames registry name ts s)
      (ht : TagTokens registry name start ⟨p, .opening⟩ t) (hp : p.singular = false)
      (hb : Content registry name body bs) (hi : Insides registry name p.family inner branches)
      (hs : opened s (⟨p, t, bs⟩ :: branches) = s') :
      Frames registry name (ts ++ start ++ body ++ inner) s'

/-- A construct goes to what the innermost open tag holds. -/
theorem Frames.add {ts us : List Token} {s : List OpenTag × List Block} {cs : List Block}
    (h : Frames registry name ts s) (hc : Construct registry name us cs) :
    Frames registry name (ts ++ us) (s.1, cs.reverse ++ s.2) := by
  cases h with
  | content h =>
    rw [← List.reverse_append]
    exact .content (.snoc h hc)
  | block h ht hp hb hi hs =>
    rename_i ts start body inner s₀ p t bs branches
    subst hs
    rcases branches.eq_nil_or_concat' with rfl | ⟨branches, b, rfl⟩
    · cases hi.of_nil
      rw [List.append_nil, List.append_assoc, ← List.append_nil (body ++ us), ← List.append_assoc]
      exact .block h ht hp (.snoc hb hc) .nil (by simp [opened])
    · rw [List.append_assoc]
      refine .block h ht hp hb (hi.extend hc) ?_
      rw [← List.cons_append, ← List.cons_append, opened_concat, opened_concat]
      simp

theorem Frames.start {ts us : List Token} {s : List OpenTag × List Block} {p : TagPlugin} {t : Tag}
    (h : Frames registry name ts s) (ht : TagTokens registry name us ⟨p, .opening⟩ t) (hp : p.singular = false) :
    Frames registry name (ts ++ us) (⟨p, t, s.2⟩ :: s.1, []) := by
  have := Frames.block h ht hp .nil .nil rfl
  rwa [List.append_nil, List.append_nil] at this

/-- An inside tag that is admitted goes on with the innermost open block. -/
theorem Frames.inside {ts us : List Token} {s : List OpenTag × List Block} {p : TagPlugin} {t : Tag}
    (h : Frames registry name ts s) (ht : TagTokens registry name us ⟨p, .inside⟩ t) (ha : Admits p.family s.1) :
    Frames registry name (ts ++ us) (⟨p, t, s.2⟩ :: s.1, []) := by
  obtain ⟨o, rest, ho, hf, hn⟩ := ha
  cases h with
  | content h => cases ho
  | block h hq hs hb hi he =>
    rename_i ts start body inner s₀ q u bs branches
    subst he
    have hbranch : ∀ b ∈ branches, b.plugin.family = q.family := fun b hb => (hi.branch b hb).2
    have hfamily : p.family = q.family := hf.symm.trans (family_of_opened hbranch ho)
    -- only the innermost branch is looked at; those below it were when it was opened
    have hfinal : ∀ b ∈ branches, b.tag.name ∉ b.plugin.finalNames := by
      rcases branches.eq_nil_or_concat' with rfl | ⟨branches, b, rfl⟩
      · simp
      · rw [← List.cons_append, opened_concat] at ho
        cases ho
        obtain ⟨-, -, -, -, -, hrest, -⟩ := hi.of_concat
        intro c hc
        rcases List.mem_append.1 hc with hc | hc
        · exact hrest c hc
        · cases List.mem_singleton.1 hc
          exact fun hm => hn ⟨(hi.branch b (by simp)).1, hm⟩
    have hi' : Insides registry name q.family (inner ++ us) (branches ++ [⟨p, t, []⟩]) := by
      have := Insides.snoc hi hfinal ht hfamily .nil
      rwa [List.append_nil] at this
    rw [List.append_assoc]
    exact .block h hq hs hb hi' (by rw [← List.cons_append, opened_concat]; rfl)

/-- A closing tag completes the innermost open block. -/
theorem Frames.close {ts us : List Token} {s s' : List OpenTag × List Block} {p : TagPlugin} {t : Tag}
    (h : Frames registry name ts s) (ht : TagTokens registry name us ⟨p, .closing⟩ t)
    (hc : closeFamily? p.family s.1 s.2 = some s') : Frames registry name (ts ++ us) s' := by
  cases h with
  | content h => cases hc
  | block h hq hs hb hi he =>
    rename_i ts start body inner s₀ q u bs branches
    subst he
    have hbranch : ∀ b ∈ branches, b.plugin.family = q.family := fun b hb => (hi.branch b hb).2
    have hfamily : p.family = q.family := by
      cases ho : (opened s₀ (⟨q, u, bs⟩ :: branches)).1 with
      | nil => exact absurd ho (opened_cons_ne_nil _ _ _)
      | cons o rest =>
        rw [ho, closeFamily?] at hc
        by_contra hne
        rw [if_neg (by simpa [family_of_opened hbranch ho] using Ne.symm hne)] at hc
        cases hc
    rw [hfamily] at hc
    have hclose : closeFamily? q.family (opened s₀ (⟨q, u, bs⟩ :: branches)).1
        (opened s₀ (⟨q, u, bs⟩ :: branches)).2 = some (s₀.1, (nest (⟨q, u, bs⟩ :: branches)).reverse ++ s₀.2) :=
      closeFamily?_opened (b := ⟨q, u, bs⟩) hq.role rfl branches hi.branch []
    cases hclose.symm.trans hc
    have := h.add (.block hq hs hb hi ht hfamily)
    simpa [List.append_assoc] using this

/-- What the tokens read so far amount to: the open blocks, and the beginning of a construct. -/
inductive Amounts (registry : TagRegistry) (name : String) : List Token → Reader → Prop
  | between {ts : List Token} {s : List OpenTag × List Block} {r : Reader} (h : Frames registry name ts s)
      (hr : Between s r) : Amounts registry name ts r
  | comment {ts inner : List Token} {o : Token} {s : List OpenTag × List Block} {r : Reader}
      (h : Frames registry name ts s) (ho : o.kind = .delimiter .commentOpen)
      (hi : ∀ t ∈ inner, t.kind ≠ .delimiter .commentClose) (hr : Standing [.comment, .content] none s r) :
      Amounts registry name (ts ++ o :: inner) r
  | output {ts : List Token} {o : Token} {payload : Option Token} {s : List OpenTag × List Block} {r : Reader}
      (h : Frames registry name ts s) (ho : o.kind = .delimiter .outputOpen)
      (hp : ∀ p ∈ payload, p.kind = .text) (hr : Standing [.expression, .content] payload s r) :
      Amounts registry name (ts ++ o :: payload.toList) r
  | tag {ts : List Token} {o : Token} {payload : Option Token} {s : List OpenTag × List Block} {r : Reader}
      (h : Frames registry name ts s) (ho : o.kind = .delimiter .tagOpen)
      (hp : ∀ p ∈ payload, p.kind = .text) (hr : Standing [.tag, .content] payload s r) :
      Amounts registry name (ts ++ o :: payload.toList) r

/-- A tag that is put into its place goes on with the open blocks. -/
theorem Frames.place {ts us : List Token} {s : List OpenTag × List Block} {route : TagRoute} {t : Tag}
    {r r' : Reader} (h : Frames registry name ts s) (ht : TagTokens registry name us route t) (hr : Between s r)
    (hp : placeTag name route t r = .ok r') : Amounts registry name (ts ++ us) r' := by
  obtain ⟨p, role⟩ := route
  cases role with
  | opening =>
    rw [placeTag_opening] at hp
    cases hs : p.singular with
    | true =>
      rw [hs] at hp
      cases hp
      exact .between (h.add (.singular ht hs))
        ⟨hr.contexts, hr.payload, hr.openTags, congrArg (_ :: ·) hr.blocks⟩
    | false =>
      rw [hs] at hp
      cases hp
      refine .between (h.start ht hs) ⟨hr.contexts, hr.payload, ?_, rfl⟩
      show ⟨p, t, r.blocks⟩ :: r.openTags = _
      rw [hr.blocks, hr.openTags]
  | inside =>
    obtain ⟨ha, rfl⟩ := placeTag_inside.1 hp
    rw [hr.openTags] at ha
    refine .between (h.inside ht ha) ⟨hr.contexts, hr.payload, ?_, rfl⟩
    show ⟨p, t, r.blocks⟩ :: r.openTags = _
    rw [hr.blocks, hr.openTags]
  | closing =>
    obtain ⟨stack, blocks, hc, rfl⟩ := placeTag_closing.1 hp
    rw [hr.openTags, hr.blocks] at hc
    exact .between (h.close ht hc) ⟨hr.contexts, hr.payload, rfl, rfl⟩

/-- A construct has one payload at most, since no text follows another. -/
theorem payload_eq_none {ts : List Token} {o t : Token} {payload : Option Token}
    (hp : ∀ p ∈ payload, p.kind = .text) (ht : t.kind = .text)
    (ha : ((ts ++ o :: payload.toList ++ [t]).map (·.kind)).IsChain TokenKind.Apart) : payload = none := by
  cases payload with
  | none => rfl
  | some p =>
    have hsplit : (ts ++ o :: (some p).toList ++ [t]).map (·.kind) =
        (ts ++ [o]).map (·.kind) ++ p.kind :: t.kind :: [] := by simp
    rw [hsplit, List.isChain_append_cons_cons] at ha
    exact absurd ht (ha.2.1 (hp p rfl))

/-- A token that is taken in goes on with what has been read. -/
theorem Amounts.step {ts : List Token} {t : Token} {r r' : Reader} (h : Amounts registry name ts r)
    (ha : ((ts ++ [t]).map (·.kind)).IsChain TokenKind.Apart) (hs : step registry name r t = .ok r') :
    Amounts registry name (ts ++ [t]) r' := by
  cases h with
  | between h hr =>
    rw [step_content hr.contexts] at hs
    cases hk : t.kind with
    | text =>
      rw [hk] at hs
      cases hs
      exact .between (h.add (.text hk)) ⟨rfl, hr.payload, hr.openTags, congrArg (_ :: ·) hr.blocks⟩
    | delimiter d =>
      rw [hk] at hs
      cases d with
      | tagOpen =>
        cases hs
        show Amounts registry name (ts ++ t :: (none : Option Token).toList) _
        exact .tag h hk nofun ⟨rfl, hr.payload, hr.openTags, hr.blocks⟩
      | outputOpen =>
        cases hs
        show Amounts registry name (ts ++ t :: (none : Option Token).toList) _
        exact .output h hk nofun ⟨rfl, hr.payload, hr.openTags, hr.blocks⟩
      | commentOpen =>
        cases hs
        exact .comment h hk nofun ⟨rfl, hr.payload, hr.openTags, hr.blocks⟩
      | tagClose => cases hs
      | outputClose => cases hs
      | commentClose => cases hs
  | comment h ho hi hr =>
    rename_i ts inner o s
    rw [step_comment hr.contexts] at hs
    cases hs
    rw [List.append_assoc, List.cons_append]
    by_cases hk : t.kind = .delimiter .commentClose
    · rw [if_pos hk]
      exact .between (h.add (.comment (.mk ho hi hk))) ⟨rfl, hr.payload, hr.openTags, hr.blocks⟩
    · rw [if_neg hk]
      refine .comment h ho ?_ ⟨rfl, hr.payload, hr.openTags, hr.blocks⟩
      intro u hu
      rcases List.mem_append.1 hu with hu | hu
      · exact hi u hu
      · cases List.mem_singleton.1 hu
        exact hk
  | output h ho hp hr =>
    rename_i ts o payload s
    rw [step_expression hr.contexts] at hs
    cases hk : t.kind with
    | text =>
      rw [hk] at hs
      cases hs
      -- a second payload would replace the first one, but it would be a text after a text
      cases payload_eq_none hp hk ha
      rw [List.append_assoc]
      show Amounts registry name (ts ++ o :: (some t).toList) _
      exact .output h ho (by simpa using hk) ⟨rfl, rfl, hr.openTags, hr.blocks⟩
    | delimiter d =>
      rw [hk] at hs
      cases d with
      | outputClose =>
        obtain ⟨p, hpay, hb, rfl⟩ := addOutput_eq_ok.1 hs
        cases hr.payload.symm.trans hpay
        rw [List.append_assoc]
        exact .between (h.add (.output (.mk ho (hp p rfl) hk) hb))
          ⟨rfl, rfl, hr.openTags, congrArg (_ :: ·) hr.blocks⟩
      | tagOpen => cases hs
      | tagClose => cases hs
      | outputOpen => cases hs
      | commentOpen => cases hs
      | commentClose => cases hs
  | tag h ho hp hr =>
    rename_i ts o payload s
    rw [step_tag hr.contexts] at hs
    cases hk : t.kind with
    | text =>
      rw [hk] at hs
      cases hs
      cases payload_eq_none hp hk ha
      rw [List.append_assoc]
      show Amounts registry name (ts ++ o :: (some t).toList) _
      exact .tag h ho (by simpa using hk) ⟨rfl, rfl, hr.openTags, hr.blocks⟩
    | delimiter d =>
      rw [hk] at hs
      cases d with
      | tagClose =>
        obtain ⟨p, route, tag, hpay, hm, hroute, hrole, hreads, htemplate, hl, hplace⟩ := addTag_eq_ok.1 hs
        cases hr.payload.symm.trans hpay
        rw [List.append_assoc]
        have ht : TagTokens registry name ([o, p] ++ [t]) route tag :=
          ⟨hroute, hrole, hreads, htemplate, p, .mk ho (hp p rfl) hk, hm, hl⟩
        have hclosed : Between s { r.moved t [.content] with payload := none } := ⟨rfl, rfl, hr.openTags, hr.blocks⟩
        exact h.place ht hclosed hplace
      | tagOpen => cases hs
      | outputOpen => cases hs
      | outputClose => cases hs
      | commentOpen => cases hs
      | commentClose => cases hs

/-- What the tokens amount to is kept along a run. -/
theorem Amounts.run {ts us : List Token} {r r' : Reader} (h : Amounts registry name ts r)
    (ha : ((ts ++ us).map (·.kind)).IsChain TokenKind.Apart)
    (hs : us.foldlM (Reader.step registry name) r = .ok r') : Amounts registry name (ts ++ us) r' := by
  induction us generalizing ts r with
  | nil =>
    cases hs
    rwa [List.append_nil]
  | cons u us ih =>
    rw [List.foldlM_cons] at hs
    obtain ⟨r₁, hu, hus⟩ := bind_eq_ok.1 hs
    rw [← List.singleton_append, ← List.append_assoc] at ha ⊢
    have hstep : ((ts ++ [u]).map (·.kind)).IsChain TokenKind.Apart := by
      rw [List.map_append] at ha
      exact ha.left_of_append
    exact ih (h.step hstep hu) ha hus

/-- Where nothing is left open, the tokens are a row of constructs. -/
theorem Amounts.content {ts : List Token} {r : Reader} {bs : List Block} (h : Amounts registry name ts r)
    (hf : r.finish name = .ok bs) : Content registry name ts bs := by
  obtain ⟨hd, ho, rfl⟩ := finish_eq_ok.1 hf
  cases h with
  | between h hr =>
    cases h with
    | content h => rwa [hr.blocks, List.reverse_reverse]
    | block h ht hp hb hi hs =>
      rw [hr.openTags, ← hs] at ho
      exact absurd ho (opened_cons_ne_nil _ _ _)
  | comment h ho hi hr => rw [ContextStack.depth, hr.contexts] at hd; cases hd
  | output h ho hp hr => rw [ContextStack.depth, hr.contexts] at hd; cases hd
  | tag h ho hp hr => rw [ContextStack.depth, hr.contexts] at hd; cases hd

/-! ## The grammar of what can be read -/

theorem read_eq_ok {text : String} {t : Template} :
    Template.read registry text name = .ok t ↔ t.name = name ∧ Content registry name (tokens text) t.blocks := by
  constructor
  · intro h
    obtain ⟨r, hr, h⟩ := bind_eq_ok.1 h
    obtain ⟨bs, hf, ht⟩ := bind_eq_ok.1 h
    cases ht
    have hstart : Amounts registry name [] {} := .between (.content .nil) ⟨rfl, rfl, rfl, rfl⟩
    exact ⟨rfl, (hstart.run (tokens_apart text) hr).content hf⟩
  · rintro ⟨rfl, h⟩
    obtain ⟨r, hr, hb⟩ := h.runs ([], []) {} ⟨rfl, rfl, rfl, rfl⟩
    have hf : r.finish t.name = .ok t.blocks := by
      refine finish_eq_ok.2 ⟨by rw [ContextStack.depth, hb.contexts]; rfl, hb.openTags, ?_⟩
      rw [hb.blocks, List.append_nil, List.reverse_reverse]
    exact bind_eq_ok.2 ⟨r, hr, bind_eq_ok.2 ⟨_, hf, rfl⟩⟩

/-- A template is read iff its tokens are a row of constructs, and then its blocks are those of the
derivation; any other text is refused. -/
theorem read_accepts_grammar (registry : TagRegistry) (text name : String) :
    ((∃ t, Template.read registry text name = .ok t) ↔ ∃ bs, Content registry name (tokens text) bs) ∧
    (∀ t, Template.read registry text name = .ok t ↔
      t.name = name ∧ Content registry name (tokens text) t.blocks) ∧
    ((¬ ∃ bs, Content registry name (tokens text) bs) → ∃ e, Template.read registry text name = .error e) := by
  have haccepts : (∃ t, Template.read registry text name = .ok t) ↔ ∃ bs, Content registry name (tokens text) bs :=
    ⟨fun ⟨t, ht⟩ => ⟨t.blocks, (read_eq_ok.1 ht).2⟩, fun ⟨bs, h⟩ => ⟨⟨name, bs⟩, read_eq_ok.2 ⟨rfl, h⟩⟩⟩
  refine ⟨haccepts, fun t => read_eq_ok, fun hno => ?_⟩
  cases h : Template.read registry text name with
  | ok t => exact absurd (haccepts.1 ⟨t, h⟩) hno
  | error e => exact ⟨e, rfl⟩

end TemplateEngine.Template

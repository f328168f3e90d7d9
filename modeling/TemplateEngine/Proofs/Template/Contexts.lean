/-
Runs of the context stack. Whatever tokens it is fed, also after tokens that it refuses, the content alone is open or
one construct in the content. A run is accepted exactly if its tokens are a row of texts and of constructs, each from
its opening delimiter to its closing one, and each text is told to belong to the construct of this row in which it
stands.
-/
import TemplateEngine.Proofs.Template.Splice

namespace TemplateEngine.Template

/-! ## Rows of constructs -/

/-- The delimiters around a construct; the content has none. -/
def Context.delimiters? : Context → Option (Delimiter × Delimiter)
  | content => none
  | tag => some (.tagOpen, .tagClose)
  | expression => some (.outputOpen, .outputClose)
  | comment => some (.commentOpen, .commentClose)

/-- What may stand between the delimiters of a construct: in a comment all but its closing delimiter, elsewhere
texts. -/
def Context.Holds (c : Context) (t : Token) : Prop :=
  if c = .comment then t.kind ≠ .delimiter .commentClose else t.kind = .text

/-- The texts among tokens that stand in a construct, each with it. -/
def Context.texts (c : Context) (ts : List Token) : List (Token × Context) :=
  (ts.filter fun t => t.kind = .text).map fun t => (t, c)

/-- A row of texts and of constructs without others in them, and its texts, each with the construct in which it
stands. -/
inductive Flat : List Token → List (Token × Context) → Prop
  | nil : Flat [] []
  | text {t : Token} {ts : List Token} {owners : List (Token × Context)} (ht : t.kind = .text) (h : Flat ts owners) :
      Flat (t :: ts) ((t, .content) :: owners)
  | construct {c : Context} {left right : Delimiter} {o e : Token} {inner ts : List Token}
      {owners : List (Token × Context)} (hc : c.delimiters? = some (left, right)) (ho : o.kind = .delimiter left)
      (hi : ∀ t ∈ inner, c.Holds t) (he : e.kind = .delimiter right) (h : Flat ts owners) :
      Flat (o :: (inner ++ e :: ts)) (c.texts inner ++ owners)

/-- The content alone is open, or a construct in it. -/
inductive Shallow : List Context → Prop
  | content : Shallow [.content]
  | inside {c : Context} (hc : c ≠ .content) : Shallow [c, .content]

namespace ContextStack

/-- What the stack answers to tokens that it is fed in turn, going on after those that it refuses. -/
def answers (s : ContextStack) : List Token → List (Except ContextProblem (Option Context))
  | [] => []
  | t :: ts => (s.feed t).1 :: (s.feed t).2.answers ts

/-- The texts among them with what it answers to each. -/
def textAnswers (s : ContextStack) (ts : List Token) : List (Token × Except ContextProblem (Option Context)) :=
  (ts.zip (s.answers ts)).filter fun p => p.1.kind = .text

/-- No token is refused, and the template may end after them. -/
def Accepts (s : ContextStack) (ts : List Token) : Prop :=
  (∀ r ∈ s.answers ts, ∃ owner, r = .ok owner) ∧ (s.feedAll ts).finish = .ok ()

variable {s : ContextStack} {c : Context} {left right : Delimiter} {t : Token} {ts us : List Token}

theorem feedAll_cons (s : ContextStack) (t : Token) (ts : List Token) :
    s.feedAll (t :: ts) = (s.feed t).2.feedAll ts :=
  List.foldl_cons ..

theorem accepts_cons : s.Accepts (t :: ts) ↔ (∃ owner, (s.feed t).1 = .ok owner) ∧ (s.feed t).2.Accepts ts := by
  unfold Accepts
  rw [answers, List.forall_mem_cons, feedAll_cons, and_assoc]

/-! ## One token -/

theorem feed_text (s : ContextStack) (ht : t.kind = .text) : s.feed t = (.ok (some s.top), ⟨s.contexts, t.line⟩) := by
  rw [feed, ht]

theorem feed_opening (h : s.contexts = [.content]) (hc : c.delimiters? = some (left, right))
    (ht : t.kind = .delimiter left) : s.feed t = (.ok none, ⟨[c, .content], t.line⟩) := by
  cases c <;> cases hc <;> simp [feed, ht, top, h, move?]

theorem feed_closing (h : s.contexts = [c, .content]) (hc : c.delimiters? = some (left, right))
    (ht : t.kind = .delimiter right) : s.feed t = (.ok (some c), ⟨[.content], t.line⟩) := by
  cases c <;> cases hc <;> simp [feed, ht, top, h, move?]

/-- A token that a construct holds leaves it open. Only a text is told where it stands. -/
theorem feed_held (h : s.contexts = [c, .content]) (hc : c ≠ .content) (ht : c.Holds t) :
    s.feed t = (.ok (if t.kind = .text then some c else none), ⟨[c, .content], t.line⟩) := by
  cases hk : t.kind with
  | text => simp [feed, hk, top, h]
  | delimiter d =>
    have hcomment : c = .comment := by
      by_contra hne
      rw [Context.Holds, if_neg hne, hk] at ht
      cases ht
    subst hcomment
    cases d <;> simp_all [feed, top, move?, Context.Holds]

/-- In the content texts and opening delimiters are taken. -/
theorem feed_content_ok (h : s.contexts = [.content]) {owner : Option Context} (hok : (s.feed t).1 = .ok owner) :
    t.kind = .text ∨ ∃ c left right, Context.delimiters? c = some (left, right) ∧ t.kind = .delimiter left := by
  cases hk : t.kind with
  | text => exact .inl rfl
  | delimiter d =>
    refine .inr ?_
    cases d with
    | tagOpen => exact ⟨.tag, _, _, rfl, rfl⟩
    | outputOpen => exact ⟨.expression, _, _, rfl, rfl⟩
    | commentOpen => exact ⟨.comment, _, _, rfl, rfl⟩
    | tagClose | outputClose | commentClose => simp [feed, hk, top, h, move?] at hok

/-- In a construct what it holds and its closing delimiter are taken. -/
theorem feed_inside_ok (h : s.contexts = [c, .content]) (hc : c.delimiters? = some (left, right))
    {owner : Option Context} (hok : (s.feed t).1 = .ok owner) : c.Holds t ∨ t.kind = .delimiter right := by
  cases hk : t.kind with
  | text => cases c <;> cases hc <;> simp [Context.Holds, hk]
  | delimiter d => cases c <;> cases hc <;> cases d <;> simp_all [feed, top, move?, Context.Holds]

theorem ne_content_of_delimiters? (hc : c.delimiters? = some (left, right)) : c ≠ .content := by
  rintro rfl
  cases hc

/-- A refused token leaves the contexts as they are. -/
theorem contexts_of_refused {problem : ContextProblem} (h : (s.feed t).1 = .error problem) :
    (s.feed t).2.contexts = s.contexts := by
  unfold feed at h ⊢
  dsimp only at h ⊢
  split at h
  · cases h
  · split at h
    · cases h
    · cases h
    · split at h
      · cases h
      · rename_i hne
        rw [if_neg hne]

/-- In a comment no token is refused. -/
theorem feed_of_comment (h : s.top = .comment) (t : Token) : ∃ owner, (s.feed t).1 = .ok owner := by
  unfold feed
  rw [h]
  dsimp only
  split
  · exact ⟨_, rfl⟩
  · split <;> exact ⟨_, rfl⟩

/-- No token opens more than a construct in the content, and none closes the content. -/
theorem shallow_feed (h : Shallow s.contexts) (t : Token) : Shallow (s.feed t).2.contexts := by
  cases hr : (s.feed t).1 with
  | error problem => rwa [contexts_of_refused hr]
  | ok owner =>
    generalize hs : s.contexts = cs at h
    cases h with
    | content =>
      obtain ht | ⟨c, left, right, hc, ht⟩ := feed_content_ok hs hr
      · rw [feed_text s ht, hs]
        exact .content
      · rw [feed_opening hs hc ht]
        exact .inside (ne_content_of_delimiters? hc)
    | @inside c hne =>
      obtain ⟨left, right, hc⟩ : ∃ left right, c.delimiters? = some (left, right) := by
        cases c with
        | content => exact absurd rfl hne
        | tag | expression | comment => exact ⟨_, _, rfl⟩
      obtain ht | ht := feed_inside_ok hs hc hr
      · rw [feed_held hs hne ht]
        exact .inside hne
      · rw [feed_closing hs hc ht]
        exact .content

theorem shallow_feedAll (h : Shallow s.contexts) (ts : List Token) : Shallow (s.feedAll ts).contexts := by
  induction ts generalizing s with
  | nil => exact h
  | cons t ts ih =>
    rw [feedAll_cons]
    exact ih (shallow_feed h t)

/-! ## Accepted runs -/

/-- A template may end where the content alone is open. -/
theorem finish_eq_ok_iff (h : Shallow s.contexts) : s.finish = .ok () ↔ s.contexts = [.content] := by
  unfold finish depth
  generalize s.contexts = cs at h
  cases h <;> simp

/-- The tokens of an accepted run, from the content or from a construct that is open in it. By induction on the tokens;
what follows the first token is an accepted run from where it leads. -/
theorem flat_of_accepts (hacc : s.Accepts ts) :
    (s.contexts = [.content] → ∃ owners, Flat ts owners) ∧
      ∀ c left right, c.delimiters? = some (left, right) → s.contexts = [c, .content] →
        ∃ inner e rest owners, ts = inner ++ e :: rest ∧ (∀ t ∈ inner, c.Holds t) ∧ e.kind = .delimiter right ∧
          Flat rest owners := by
  induction ts generalizing s with
  | nil =>
    refine ⟨fun _ => ⟨[], .nil⟩, fun c left right hc hs => ?_⟩
    have hfinish : s.finish = .ok () := hacc.2
    have hshallow : Shallow s.contexts := hs ▸ .inside (ne_content_of_delimiters? hc)
    rw [finish_eq_ok_iff hshallow, hs] at hfinish
    cases hfinish
  | cons t ts ih =>
    obtain ⟨⟨owner, hok⟩, hrest⟩ := accepts_cons.1 hacc
    obtain ⟨hcontent, hinside⟩ := ih hrest
    constructor
    · intro hs
      obtain ht | ⟨c, left, right, hc, ht⟩ := feed_content_ok hs hok
      · obtain ⟨owners, h⟩ := hcontent (by rw [feed_text s ht, hs])
        exact ⟨_, .text ht h⟩
      · obtain ⟨inner, e, rest, owners, rfl, hi, he, h⟩ := hinside c left right hc (by rw [feed_opening hs hc ht])
        exact ⟨_, .construct hc ht hi he h⟩
    · intro c left right hc hs
      obtain ht | ht := feed_inside_ok hs hc hok
      · have hheld := feed_held hs (ne_content_of_delimiters? hc) ht
        obtain ⟨inner, e, rest, owners, rfl, hi, he, h⟩ := hinside c left right hc (by rw [hheld])
        exact ⟨t :: inner, e, rest, owners, rfl, List.forall_mem_cons.2 ⟨ht, hi⟩, he, h⟩
      · obtain ⟨owners, h⟩ := hcontent (by rw [feed_closing hs hc ht])
        exact ⟨[], t, ts, owners, rfl, nofun, ht, h⟩

/-- A run that takes all tokens, tells the texts among them the constructs in which they stand, and ends in some
contexts. -/
structure Fed (s : ContextStack) (ts : List Token) (owners : List (Token × Context)) (contexts : List Context) :
    Prop where
  taken : ∀ r ∈ s.answers ts, ∃ owner, r = .ok owner
  texts : s.textAnswers ts = owners.map fun o => (o.1, .ok (some o.2))
  contexts : (s.feedAll ts).contexts = contexts

variable {s' : ContextStack} {owners : List (Token × Context)} {contexts : List Context} {inner : List Token}

theorem Fed.text (ht : t.kind = .text) (h : Fed ⟨s.contexts, t.line⟩ ts owners contexts) :
    s.Fed (t :: ts) ((t, s.top) :: owners) contexts := by
  have hfeed := feed_text s ht
  refine ⟨?_, ?_, ?_⟩
  · rw [answers, hfeed]
    exact List.forall_mem_cons.2 ⟨⟨_, rfl⟩, h.taken⟩
  · rw [textAnswers, answers, hfeed, List.zip_cons_cons, List.filter_cons_of_pos (by simpa using ht), List.map_cons]
    exact congrArg _ h.texts
  · rw [feedAll_cons, hfeed]
    exact h.contexts

theorem Fed.delimiter {owner : Option Context} (ht : t.kind ≠ .text) (hfeed : s.feed t = (.ok owner, s'))
    (h : s'.Fed ts owners contexts) : s.Fed (t :: ts) owners contexts := by
  refine ⟨?_, ?_, ?_⟩
  · rw [answers, hfeed]
    exact List.forall_mem_cons.2 ⟨⟨_, rfl⟩, h.taken⟩
  · rw [textAnswers, answers, hfeed, List.zip_cons_cons, List.filter_cons_of_neg (by simpa using ht)]
    exact h.texts
  · rw [feedAll_cons, hfeed]
    exact h.contexts

/-- What a construct holds is taken, and leads to where it was. -/
theorem Fed.held (hs : s.contexts = [c, .content]) (hc : c ≠ .content) (hi : ∀ t ∈ inner, c.Holds t)
    (h : ∀ s' : ContextStack, s'.contexts = [c, .content] → s'.Fed ts owners contexts) :
    s.Fed (inner ++ ts) (c.texts inner ++ owners) contexts := by
  induction inner generalizing s with
  | nil => exact h s hs
  | cons t inner ih =>
    obtain ⟨ht, hi⟩ := List.forall_mem_cons.1 hi
    have hfeed := feed_held hs hc ht
    rw [List.cons_append, Context.texts]
    by_cases hk : t.kind = .text
    · have hrest := ih (s := ⟨s.contexts, t.line⟩) hs hi
      have hfed := Fed.text hk hrest
      rw [top, hs] at hfed
      rwa [List.filter_cons_of_pos (by simpa using hk)]
    · rw [List.filter_cons_of_neg (by simpa using hk)]
      exact .delimiter hk hfeed (ih (s := ⟨[c, .content], t.line⟩) rfl hi)

/-- A row of texts and constructs is an accepted run, from the content on. -/
theorem fed_of_flat (h : Flat ts owners) (hs : s.contexts = [.content]) : s.Fed ts owners [.content] := by
  induction h generalizing s with
  | nil => exact ⟨List.forall_mem_nil _, rfl, hs⟩
  | text ht h ih =>
    have hfed := Fed.text ht (ih (s := ⟨s.contexts, _⟩) hs)
    rwa [top, hs] at hfed
  | construct hc ho hi he h ih =>
    have hdelimiter {t : Token} {d : Delimiter} (ht : t.kind = .delimiter d) : t.kind ≠ .text := by
      simp [ht]
    refine .delimiter (hdelimiter ho) (feed_opening hs hc ho) (.held rfl (ne_content_of_delimiters? hc) hi ?_)
    intro s' hs'
    exact .delimiter (hdelimiter he) (feed_closing hs' hc he) (ih rfl)

/-- After any tokens the content alone is open, or one construct in it; a token that is refused then changes no context,
and none is refused in a comment. Tokens are accepted iff they are a row of texts and of constructs, and then each text
is told the one of the row in which it stands. -/
theorem recognises_flat (ts : List Token) :
    Shallow (feedAll {} ts).contexts ∧
      (∀ t problem, ((feedAll {} ts).feed t).1 = .error problem →
        ((feedAll {} ts).feed t).2.contexts = (feedAll {} ts).contexts) ∧
      ((feedAll {} ts).top = .comment → ∀ t, ∃ owner, ((feedAll {} ts).feed t).1 = .ok owner) ∧
      (Accepts {} ts ↔ ∃ owners, Flat ts owners) ∧
      ∀ owners, Flat ts owners → textAnswers {} ts = owners.map fun o => (o.1, .ok (some o.2)) := by
  have hstart : Shallow ({} : ContextStack).contexts := .content
  have hshallow := shallow_feedAll hstart ts
  refine ⟨hshallow, fun t problem => contexts_of_refused, feed_of_comment, ⟨?accepted, ?row⟩, ?texts⟩
  case accepted => exact fun h => (flat_of_accepts h).1 rfl
  case row =>
    rintro ⟨owners, h⟩
    have hfed := fed_of_flat (s := {}) h rfl
    exact ⟨hfed.taken, (finish_eq_ok_iff hshallow).2 hfed.contexts⟩
  case texts => exact fun owners h => (fed_of_flat h rfl).texts

/-- A closing delimiter is refused in the content and changes no context; a text in a tag is told the tag. -/
theorem recognises_flat_tag :
    (feed {} ⟨.delimiter .tagClose, "%\x7d", 1⟩).2.contexts = [.content] ∧
    textAnswers {} [⟨.delimiter .tagOpen, "\x7b%", 1⟩, ⟨.text, "x", 1⟩, ⟨.delimiter .tagClose, "%\x7d", 1⟩] =
      [(⟨.text, "x", 1⟩, .ok (some .tag))] := by
  constructor
  · exact (recognises_flat []).2.1 ⟨.delimiter .tagClose, "%\x7d", 1⟩ _ rfl
  · have hinner : ∀ t ∈ [(⟨.text, "x", 1⟩ : Token)], Context.tag.Holds t := List.forall_mem_singleton.2 rfl
    have hflat : Flat [⟨.delimiter .tagOpen, "\x7b%", 1⟩, ⟨.text, "x", 1⟩, ⟨.delimiter .tagClose, "%\x7d", 1⟩]
        [(⟨.text, "x", 1⟩, .tag)] :=
      .construct (c := .tag) rfl rfl hinner rfl .nil
    exact (recognises_flat _).2.2.2.2 _ hflat

end ContextStack

end TemplateEngine.Template

/-
Reading the same tokens again. Two readers that have read related rows take the same tokens in, on related
lines, and have still read related rows, if the relation goes along with how rows are put together. So the
blocks of a template depend on the kinds and the values of its tokens.
-/
import TemplateEngine.Proofs.Tag.Builtin
import TemplateEngine.Proofs.Template.Alike
import TemplateEngine.Proofs.Template.Step

namespace TemplateEngine

/-- A relation between rows of blocks that goes along with how rows are put together, for some families of tags,
with the names of templates and the lines that may take each other's place. -/
structure RowCongruence where
  Rows : List Block → List Block → Prop
  Names : String → String → Prop
  Lines : Nat → Nat → Prop
  Families : TagPlugin → Prop
  nil : Rows [] []
  append {bs bs' cs cs' : List Block} (hb : Rows bs bs') (hc : Rows cs cs') : Rows (bs ++ cs) (bs' ++ cs')
  text (s : String) : Rows [.text s] [.text s]
  output (source : String) {line line' : Nat} (hl : Lines line line') :
    Rows [.output source line] [.output source line']
  tag {p : TagPlugin} {t t' : Tag} {cs cs' : List Block} (hp : Families p) (ht : t.Alike Names Lines t')
    (hc : Rows cs cs') : Rows [.tag p t cs] [.tag p t' cs']

/-- All families that tags may be of are among those of a congruence. -/
def RowCongruence.Covers (K : RowCongruence) (registry : TagRegistry) : Prop :=
  ∀ name route, registry.route? name = some route → K.Families route.plugin

/-- Rows that are alike, with tags of the built-in families. -/
def RowsAlike.congruence (names : String → String → Prop) (base : List Block → List Block → Prop) : RowCongruence where
  Rows := RowsAlike names base
  Names := names
  Lines := refinement.Lines
  Families p := p ∈ builtinTags
  nil := .nil
  append := .append
  text := .text
  output source _ _ _ := .output source _ _
  tag := .tag

theorem RowsAlike.covers {names : String → String → Prop} {base : List Block → List Block → Prop}
    {registry : TagRegistry} (hreg : registry.Reachable) (hb : registry.OnlyBuiltin) :
    (RowsAlike.congruence names base).Covers registry :=
  fun _ _ h => hb _ (hreg.route h).1

/-- Rows that are rendered in the same way, with tags of any families. -/
def RowsSame.congruence : RowCongruence where
  Rows := RowsSame
  Names := Eq
  Lines := Eq
  Families _ := True
  nil _ _ _ _ _ := rfl
  append := .append
  text _ _ _ _ _ _ := rfl
  output source _ _ hl := by
    rw [hl]
    exact fun _ _ _ _ _ => rfl
  tag := by
    intro p t t' cs cs' _ ht hc
    rw [ht.eq]
    exact hc.tag p t'

theorem RowsSame.covers (registry : TagRegistry) : RowsSame.congruence.Covers registry :=
  fun _ _ _ => trivial

end TemplateEngine

namespace TemplateEngine.Template

/-- Two tokens that differ in their lines only. -/
structure Token.Alike (lines : Nat → Nat → Prop) (t t' : Token) : Prop where
  kind : t'.kind = t.kind
  value : t'.value = t.value
  line : lines t.line t'.line

/-- The contexts follow the kinds of the tokens. -/
theorem ContextStack.feed_of_alike {lines : Nat → Nat → Prop} {c c' : ContextStack} {t t' : Token}
    (hc : c'.contexts = c.contexts) (ht : t.Alike lines t') :
    (c'.feed t').1 = (c.feed t).1 ∧ (c'.feed t').2.contexts = (c.feed t).2.contexts := by
  unfold feed top
  rw [ht.kind, ht.value, hc]
  cases t.kind with
  | text => exact ⟨rfl, rfl⟩
  | delimiter d =>
    dsimp only
    split
    · exact ⟨rfl, rfl⟩
    · exact ⟨rfl, rfl⟩
    · split
      · exact ⟨rfl, rfl⟩
      · exact ⟨rfl, rfl⟩

/-- Two tags of one family that are open with related rows before them. -/
structure OpenTag.Alike (K : RowCongruence) (o o' : OpenTag) : Prop where
  plugin : o'.plugin = o.plugin
  family : K.Families o.plugin
  tag : o.tag.Alike K.Names K.Lines o'.tag
  before : K.Rows o.before.reverse o'.before.reverse

namespace Reader

/-- Two readers in the same contexts that have read related rows. -/
structure Alike (K : RowCongruence) (r r' : Reader) : Prop where
  contexts : r'.contexts.contexts = r.contexts.contexts
  payload : Option.Rel (Token.Alike K.Lines) r.payload r'.payload
  openTags : r.openTags.Forall₂ (OpenTag.Alike K) r'.openTags
  blocks : K.Rows r.blocks.reverse r'.blocks.reverse

variable {K : RowCongruence} {registry : TagRegistry} {name name' : String} {r r' r₁ : Reader} {t t' : Token}

theorem alike_start : Alike K {} {} :=
  ⟨rfl, .none, .nil, K.nil⟩

/-! ## One token -/

theorem rows_cons {b b' : Block} {bs bs' : List Block} (hb : K.Rows [b] [b'])
    (h : K.Rows bs.reverse bs'.reverse) :
    K.Rows (b :: bs).reverse (b' :: bs').reverse := by
  rw [List.reverse_cons, List.reverse_cons]
  exact K.append h hb

theorem Alike.add (h : Alike K r r') {b b' : Block} (hb : K.Rows [b] [b']) :
    Alike K (r.add b) (r'.add b') :=
  ⟨h.contexts, h.payload, h.openTags, rows_cons hb h.blocks⟩

theorem Alike.enter (h : Alike K r r') {p : TagPlugin} (hp : K.Families p) {t t' : Tag}
    (ht : t.Alike K.Names K.Lines t') : Alike K (r.enter p t) (r'.enter p t') :=
  ⟨h.contexts, h.payload, .cons ⟨rfl, hp, ht, h.blocks⟩ h.openTags, K.nil⟩

/-- The payload is used up. -/
theorem Alike.spend (h : Alike K r r') :
    Alike K { r with payload := none } { r' with payload := none } :=
  ⟨h.contexts, .none, h.openTags, h.blocks⟩

theorem Alike.payload_eq_some (h : Alike K r r') {p : Token} (hp : r.payload = some p) :
    ∃ p', r'.payload = some p' ∧ p.Alike K.Lines p' := by
  have hpay := h.payload
  rw [hp] at hpay
  cases hr' : r'.payload with
  | none =>
    rw [hr'] at hpay
    cases hpay
  | some p' =>
    rw [hr'] at hpay
    cases hpay with
    | some hpp => exact ⟨p', rfl, hpp⟩

theorem Alike.addOutput (h : Alike K r r') (ho : r.addOutput name t = .ok r₁) :
    ∃ r₁', r'.addOutput name' t' = .ok r₁' ∧ Alike K r₁ r₁' := by
  obtain ⟨p, hp, hb, rfl⟩ := addOutput_eq_ok.1 ho
  obtain ⟨p', hp', hpp⟩ := h.payload_eq_some hp
  refine ⟨_, addOutput_eq_ok.2 ⟨p', hp', by rwa [hpp.value], rfl⟩, h.spend.add ?_⟩
  rw [hpp.value]
  exact K.output _ hpp.line

/-- By induction on the open tags: the same ones of a family are closed. -/
theorem closeFamily?_of_alike {family : String} {os os' rest : List OpenTag} {bs bs' closed : List Block}
    (ho : os.Forall₂ (OpenTag.Alike K) os') (hb : K.Rows bs.reverse bs'.reverse)
    (hc : closeFamily? family os bs = some (rest, closed)) :
    ∃ rest' closed', closeFamily? family os' bs' = some (rest', closed') ∧
      rest.Forall₂ (OpenTag.Alike K) rest' ∧ K.Rows closed.reverse closed'.reverse := by
  induction ho generalizing bs bs' with
  | nil => cases hc
  | cons h hs ih =>
    rename_i o o' os os'
    have hrow := rows_cons (K.tag h.family h.tag hb) h.before
    rw [closeFamily?] at hc ⊢
    rw [h.plugin, h.tag.role]
    dsimp only at hc ⊢
    by_cases hf : (o.plugin.family == family) = true
    · rw [if_pos hf] at hc ⊢
      by_cases hr : o.tag.role = .opening
      · rw [if_pos hr] at hc ⊢
        cases hc
        exact ⟨_, _, rfl, hs, hrow⟩
      · rw [if_neg hr] at hc ⊢
        exact ih hrow hc
    · rw [if_neg hf] at hc
      cases hc

theorem Alike.placeTag (h : Alike K r r') {route : TagRoute} (hp : K.Families route.plugin) {tag tag' : Tag}
    (ht : tag.Alike K.Names K.Lines tag') (hs : placeTag name route tag r = .ok r₁) :
    ∃ r₁', Reader.placeTag name' route tag' r' = .ok r₁' ∧ Alike K r₁ r₁' := by
  obtain ⟨p, role⟩ := route
  cases role with
  | opening =>
    rw [placeTag_opening] at hs ⊢
    cases hs
    refine ⟨_, rfl, ?_⟩
    split
    · exact h.add (K.tag hp ht K.nil)
    · exact h.enter hp ht
  | inside =>
    obtain ⟨⟨o, rest, ho, hf, hn⟩, rfl⟩ := placeTag_inside.1 hs
    have hopen := h.openTags
    rw [ho] at hopen
    obtain ⟨o', rest', hoo, -, ho'⟩ := List.forall₂_cons_left_iff.1 hopen
    refine ⟨_, placeTag_inside.2 ⟨⟨o', rest', ho', ?_, ?_⟩, rfl⟩, h.enter hp ht⟩
    · rw [hoo.plugin, hf]
    · rwa [hoo.plugin, hoo.tag.role, hoo.tag.name]
  | closing =>
    obtain ⟨rest, closed, hc, rfl⟩ := placeTag_closing.1 hs
    obtain ⟨rest', closed', hc', hrest, hclosed⟩ := closeFamily?_of_alike h.openTags h.blocks hc
    exact ⟨_, placeTag_closing.2 ⟨rest', closed', hc', rfl⟩, h.contexts, h.payload, hrest, hclosed⟩

variable (hK : K.Covers registry) (hn : K.Names name name')

include hK hn

theorem Alike.addTag (h : Alike K r r') (ha : r.addTag registry name t = .ok r₁) :
    ∃ r₁', r'.addTag registry name' t' = .ok r₁' ∧ Alike K r₁ r₁' := by
  obtain ⟨p, route, tag, hp, hm, hroute, hrole, hreads, rfl, hl, hplace⟩ := addTag_eq_ok.1 ha
  obtain ⟨p', hp', hpp⟩ := h.payload_eq_some hp
  let tag' : Tag := { tag with line := p'.line, template := name' }
  have ht : tag.Alike K.Names K.Lines tag' := ⟨rfl, rfl, rfl, rfl, by rw [hl]; exact hpp.line, hn⟩
  obtain ⟨r₁', hr, hr'⟩ := h.spend.placeTag (hK _ _ hroute) ht hplace
  refine ⟨r₁', addTag_eq_ok.2 ⟨p', route, tag', hp', ?_, hroute, hrole, hreads, rfl, rfl, hr⟩, hr'⟩
  rw [hpp.value]
  exact hm

/-- One token is taken in the same way. -/
theorem Alike.step (h : Alike K r r') (ht : t.Alike K.Lines t') (hs : step registry name r t = .ok r₁) :
    ∃ r₁', Reader.step registry name' r' t' = .ok r₁' ∧ Alike K r₁ r₁' := by
  unfold Reader.step at hs ⊢
  obtain ⟨hfed, hafter⟩ := ContextStack.feed_of_alike h.contexts ht
  rcases hf : r.contexts.feed t with ⟨result, c⟩
  rcases hf' : r'.contexts.feed t' with ⟨result', c'⟩
  rw [hf] at hs
  rw [hf, hf'] at hfed hafter
  dsimp only at hfed hafter
  subst hfed
  -- the contexts decide alone what becomes of a token
  cases result' with
  | error problem => cases hs
  | ok owner =>
    have hmoved : Alike K { r with contexts := c } { r' with contexts := c' } :=
      ⟨hafter, h.payload, h.openTags, h.blocks⟩
    have hpayload : Alike K { r with contexts := c, payload := some t }
        { r' with contexts := c', payload := some t' } :=
      ⟨hafter, .some ht, h.openTags, h.blocks⟩
    dsimp only at hs ⊢
    rw [ht.kind, ht.value]
    split at hs
    · cases hs
      exact ⟨_, rfl, hmoved.add (K.text _)⟩
    · cases hs
      exact ⟨_, rfl, hpayload⟩
    · cases hs
      exact ⟨_, rfl, hpayload⟩
    · exact hmoved.addOutput hs
    · exact hmoved.addTag hK hn hs
    · cases hs
      exact ⟨_, rfl, hmoved⟩

/-! ## All tokens -/

/-- By induction on the tokens. -/
theorem Alike.run (h : Alike K r r') {ts ts' : List Token} (hts : ts.Forall₂ (Token.Alike K.Lines) ts')
    (hs : ts.foldlM (Reader.step registry name) r = .ok r₁) :
    ∃ r₁', ts'.foldlM (Reader.step registry name') r' = .ok r₁' ∧ Alike K r₁ r₁' := by
  induction hts generalizing r r' with
  | nil =>
    cases hs
    exact ⟨r', rfl, h⟩
  | cons ht hts ih =>
    rw [List.foldlM_cons] at hs ⊢
    obtain ⟨r₂, h₂, hs⟩ := bind_eq_ok.1 hs
    obtain ⟨r₂', h₂', hr⟩ := h.step hK hn ht h₂
    obtain ⟨r₁', h₁', hr₁⟩ := ih hr hs
    exact ⟨r₁', by rw [h₂', ok_bind, h₁'], hr₁⟩

omit hK hn in
theorem Alike.finish (h : Alike K r r') (name' : String) {bs : List Block} (hf : r.finish name = .ok bs) :
    ∃ bs', r'.finish name' = .ok bs' ∧ K.Rows bs bs' := by
  obtain ⟨hd, ho, rfl⟩ := finish_eq_ok.1 hf
  have hopen := h.openTags
  rw [ho] at hopen
  refine ⟨_, finish_eq_ok.2 ⟨?_, List.forall₂_nil_left_iff.1 hopen, rfl⟩, h.blocks⟩
  rwa [ContextStack.depth, h.contexts]

end Reader

variable {K : RowCongruence} {registry : TagRegistry} {name : String}

/-- Reading some pieces gives some blocks. -/
def Gives (registry : TagRegistry) (name : String) (ps : List Piece) (bs : List Block) : Prop :=
  ∃ r, (number 1 ps).foldlM (Reader.step registry name) {} = .ok r ∧ r.finish name = .ok bs

theorem read_eq_ok_gives {text : String} {t : Template} :
    Template.read registry text name = .ok t ↔ t.name = name ∧ Gives registry name (pieces text.toList) t.blocks := by
  constructor
  · intro h
    obtain ⟨r, hr, h⟩ := bind_eq_ok.1 h
    obtain ⟨bs, hf, ht⟩ := bind_eq_ok.1 h
    cases ht
    exact ⟨rfl, r, hr, hf⟩
  · rintro ⟨rfl, r, hr, hf⟩
    exact bind_eq_ok.2 ⟨r, hr, bind_eq_ok.2 ⟨_, hf, rfl⟩⟩

/-- What is read is related to itself. -/
theorem Gives.rows_self (hK : K.Covers registry) (hn : K.Names name name) (hl : ∀ line, K.Lines line line)
    {ps : List Piece} {bs : List Block} (h : Gives registry name ps bs) : K.Rows bs bs := by
  obtain ⟨r, hr, hf⟩ := h
  have hself : (number 1 ps).Forall₂ (Token.Alike K.Lines) (number 1 ps) :=
    List.forall₂_same.2 fun t _ => ⟨rfl, rfl, hl t.line⟩
  obtain ⟨r', hr', halike⟩ := Reader.alike_start.run hK hn hself hr
  cases hr.symm.trans hr'
  obtain ⟨bs', hf', hrows⟩ := halike.finish name hf
  cases hf.symm.trans hf'
  exact hrows

end TemplateEngine.Template

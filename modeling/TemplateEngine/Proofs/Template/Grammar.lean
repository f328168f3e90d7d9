/-
The grammar of templates. The tokens of a template are a row of constructs: texts, comments, outputs,
singular tags, and blocks. A block is an opening tag and what follows it, any number of inside tags of
its family, each with what follows it, and a closing tag of its family. A derivation also gives the
blocks that the tokens spell, in which each inside tag is the last child of the tag before it.
-/
import TemplateEngine.Proofs.Template.Tokens
import TemplateEngine.Template.Reader

namespace TemplateEngine.Template

/-! ## Branches -/

/-- A tag of a block with what follows it up to the next tag of the block. -/
structure Branch where
  plugin : TagPlugin
  tag : Tag
  body : List Block

/-- The block of a branch in which the next branch is nested. -/
def Branch.block (b : Branch) (inner : List Block) : Block :=
  .tag b.plugin b.tag (b.body ++ inner)

/-- The branches of a block, nested into each other. -/
def nest (branches : List Branch) : List Block :=
  branches.foldr (fun b inner => [b.block inner]) []

@[simp] theorem nest_nil : nest [] = [] := rfl

@[simp] theorem nest_cons (b : Branch) (branches : List Branch) :
    nest (b :: branches) = [b.block (nest branches)] := rfl

/-! ## Tokens of one construct -/

/-- The tokens of a comment: all up to the first closing delimiter. -/
inductive Comment : List Token → Prop
  | mk {o c : Token} {inner : List Token} (ho : o.kind = .delimiter .commentOpen)
      (hi : ∀ t ∈ inner, t.kind ≠ .delimiter .commentClose) (hc : c.kind = .delimiter .commentClose) :
      Comment (o :: (inner ++ [c]))

/-- Three tokens: a text between two delimiters. -/
inductive Enclosed (left right : Delimiter) (payload : Token) : List Token → Prop
  | mk {o c : Token} (ho : o.kind = .delimiter left) (hp : payload.kind = .text)
      (hc : c.kind = .delimiter right) : Enclosed left right payload [o, payload, c]

/-- The arguments of a tag of a route: read from the signature, except for a closing tag. -/
def TagRoute.Reads (route : TagRoute) (m : TagMarkup) (args : TagArgs) : Prop :=
  if route.role = .closing then args = .none else route.plugin.readArgs m.name route.role m.signature = .ok args

/-- The tokens of a tag of the template `name`, the route of its name, and the tag that they spell. -/
structure TagTokens (registry : TagRegistry) (name : String) (ts : List Token) (route : TagRoute) (t : Tag) :
    Prop where
  routed : registry.route? t.name = some route
  role : t.role = route.role
  reads : TagRoute.Reads route t.markup t.args
  template : t.template = name
  tokens : ∃ p, Enclosed .tagOpen .tagClose p ts ∧ TagMarkup.ofPayload? p.value = some t.markup ∧ t.line = p.line

/-! ## Derivations -/

mutual

/-- The tokens of one construct and the blocks that they spell. -/
inductive Construct (registry : TagRegistry) (name : String) : List Token → List Block → Prop
  | text {t : Token} (h : t.kind = .text) : Construct registry name [t] [.text t.value]
  | comment {ts : List Token} (h : Comment ts) : Construct registry name ts []
  | output {p : Token} {ts : List Token} (h : Enclosed .outputOpen .outputClose p ts)
      (hp : Text.blank p.value = false) : Construct registry name ts [.output (Text.trim p.value) p.line]
  | singular {p : TagPlugin} {t : Tag} {ts : List Token} (h : TagTokens registry name ts ⟨p, .opening⟩ t)
      (hp : p.singular = true) : Construct registry name ts [.tag p t []]
  | block {p q : TagPlugin} {t c : Tag} {start body inner close : List Token} {bs : List Block}
      {branches : List Branch} (h : TagTokens registry name start ⟨p, .opening⟩ t) (hp : p.singular = false)
      (hb : Content registry name body bs) (hi : Insides registry name p.family inner branches)
      (hc : TagTokens registry name close ⟨q, .closing⟩ c) (hq : q.family = p.family) :
      Construct registry name (start ++ body ++ inner ++ close) (nest (⟨p, t, bs⟩ :: branches))

/-- The tokens of a row of constructs and the blocks that they spell. -/
inductive Content (registry : TagRegistry) (name : String) : List Token → List Block → Prop
  | nil : Content registry name [] []
  | snoc {ts us : List Token} {bs cs : List Block} (h : Content registry name ts bs)
      (hc : Construct registry name us cs) : Content registry name (ts ++ us) (bs ++ cs)

/-- The tokens of the inside tags of a family, with what follows each of them, and their branches. No
tag follows a final one. -/
inductive Insides (registry : TagRegistry) (name : String) : String → List Token → List Branch → Prop
  | nil {family : String} : Insides registry name family [] []
  | snoc {family : String} {ts us body : List Token} {branches : List Branch} {p : TagPlugin} {t : Tag}
      {bs : List Block} (h : Insides registry name family ts branches)
      (hf : ∀ b ∈ branches, b.tag.name ∉ b.plugin.finalNames)
      (ht : TagTokens registry name us ⟨p, .inside⟩ t) (hp : p.family = family)
      (hb : Content registry name body bs) :
      Insides registry name family (ts ++ us ++ body) (branches ++ [⟨p, t, bs⟩])

end

variable {registry : TagRegistry} {name : String}

/-! ## Branches of a derivation -/

theorem Insides.of_nil {family : String} {ts : List Token} (h : Insides registry name family ts []) : ts = [] := by
  generalize hb : ([] : List Branch) = branches at h
  cases h with
  | nil => rfl
  | snoc => simp at hb

/-- The last tag of a block with its tokens and what follows it. -/
theorem Insides.of_concat {family : String} {ts : List Token} {branches : List Branch} {b : Branch}
    (h : Insides registry name family ts (branches ++ [b])) :
    ∃ us vs body, ts = us ++ vs ++ body ∧ Insides registry name family us branches ∧
      (∀ c ∈ branches, c.tag.name ∉ c.plugin.finalNames) ∧
      TagTokens registry name vs ⟨b.plugin, .inside⟩ b.tag ∧ b.plugin.family = family ∧
      Content registry name body b.body := by
  generalize hb : branches ++ [b] = all at h
  cases h with
  | nil => simp at hb
  | snoc h hf ht hp hc =>
    obtain ⟨rfl, hl⟩ := List.append_inj' hb rfl
    cases hl
    exact ⟨_, _, _, rfl, h, hf, ht, hp, hc⟩

/-- Each branch after the first one has an inside tag of the family and a row of constructs after it. -/
theorem Insides.of_mem {family : String} {ts : List Token} {branches : List Branch}
    (h : Insides registry name family ts branches) : ∀ b ∈ branches, b.plugin.family = family ∧
      (∃ us, TagTokens registry name us ⟨b.plugin, .inside⟩ b.tag) ∧ ∃ us, Content registry name us b.body := by
  induction branches using List.reverseRecOn generalizing ts with
  | nil => simp
  | append_singleton branches b ih =>
    obtain ⟨us, vs, body, -, hi, -, ht, hp, hb⟩ := h.of_concat
    intro c hc
    rcases List.mem_append.1 hc with hc | hc
    · exact ih hi c hc
    · cases List.mem_singleton.1 hc
      exact ⟨hp, ⟨vs, ht⟩, body, hb⟩

/-- The tags of a block after the first one are inside tags of its family. -/
theorem Insides.branch {family : String} {ts : List Token} {branches : List Branch}
    (h : Insides registry name family ts branches) :
    ∀ b ∈ branches, b.tag.role = .inside ∧ b.plugin.family = family := by
  intro b hb
  obtain ⟨hp, ⟨us, ht⟩, -⟩ := h.of_mem b hb
  exact ⟨ht.role, hp⟩

/-- What follows the last tag of a block may go on. -/
theorem Insides.extend {family : String} {ts us : List Token} {branches : List Branch} {b : Branch}
    {cs : List Block} (h : Insides registry name family ts (branches ++ [b]))
    (hc : Construct registry name us cs) :
    Insides registry name family (ts ++ us) (branches ++ [{ b with body := b.body ++ cs }]) := by
  obtain ⟨us, vs, body, rfl, hi, hf, ht, hp, hb⟩ := h.of_concat
  rw [List.append_assoc]
  exact .snoc hi hf ht hp (.snoc hb hc)

end TemplateEngine.Template

/-
The shape of the blocks of a template. What stands in the content, of the template or of a branch, is a
text, an output or a tag that opens, and has a derivation of its own; inside tags are found nowhere else
than nested into the block that they belong to.
-/
import TemplateEngine.Proofs.Template.Grammar

namespace TemplateEngine

open Template

/-! ## Occurrences -/

/-- A block is one of some blocks or lies somewhere below them. -/
inductive Block.Occurs (b : Block) : List Block → Prop
  | here {bs : List Block} (h : b ∈ bs) : b.Occurs bs
  | within {bs cs : List Block} {p : TagPlugin} {t : Tag} (h : .tag p t cs ∈ bs) (hb : b.Occurs cs) : b.Occurs bs

namespace Block

variable {b : Block}

theorem not_occurs_nil : ¬ b.Occurs [] := by
  rintro (h | h) <;> cases h

theorem occurs_append {bs cs : List Block} : b.Occurs (bs ++ cs) ↔ b.Occurs bs ∨ b.Occurs cs := by
  constructor
  · rintro (h | ⟨h, hb⟩)
    · exact (List.mem_append.1 h).imp .here .here
    · exact (List.mem_append.1 h).imp (.within · hb) (.within · hb)
  · rintro ((h | ⟨h, hb⟩) | (h | ⟨h, hb⟩))
    · exact .here (List.mem_append_left _ h)
    · exact .within (List.mem_append_left _ h) hb
    · exact .here (List.mem_append_right _ h)
    · exact .within (List.mem_append_right _ h) hb

theorem occurs_cons {c : Block} {bs : List Block} : b.Occurs (c :: bs) ↔ b.Occurs [c] ∨ b.Occurs bs := by
  rw [← List.singleton_append, occurs_append]

theorem occurs_tag {p : TagPlugin} {t : Tag} {cs : List Block} :
    b.Occurs [.tag p t cs] ↔ b = .tag p t cs ∨ b.Occurs cs := by
  constructor
  · rintro (h | ⟨h, hb⟩)
    · exact .inl (List.mem_singleton.1 h)
    · cases List.mem_singleton.1 h
      exact .inr hb
  · rintro (rfl | h)
    · exact .here (List.mem_singleton_self _)
    · exact .within (List.mem_singleton_self _) h

/-- What occurs in nested branches is one of their tags or occurs in what follows one of them. -/
theorem Occurs.of_nest {branches : List Branch} (h : b.Occurs (nest branches)) :
    (∃ front c rest, branches = front ++ c :: rest ∧ b = c.block (nest rest)) ∨
      ∃ c ∈ branches, b.Occurs c.body := by
  induction branches with
  | nil => exact absurd h not_occurs_nil
  | cons c branches ih =>
    rcases occurs_tag.1 h with rfl | h
    · exact .inl ⟨[], c, branches, rfl, rfl⟩
    · rcases occurs_append.1 h with h | h
      · exact .inr ⟨c, List.mem_cons_self .., h⟩
      · rcases ih h with ⟨front, e, rest, rfl, hb⟩ | ⟨e, he, h⟩
        · exact .inl ⟨c :: front, e, rest, rfl, hb⟩
        · exact .inr ⟨e, List.mem_cons_of_mem _ he, h⟩

/-- What a tag holds occurs where the tag does. -/
theorem Occurs.child {p : TagPlugin} {t : Tag} {bs cs : List Block} (h : (tag p t cs).Occurs bs) (hb : b ∈ cs) :
    b.Occurs bs := by
  generalize hc : tag p t cs = c at h
  induction h with
  | here h => exact .within (hc ▸ h) (.here hb)
  | within h _ ih => exact .within h ih

end Block

/-! ## Derivations of single blocks -/

namespace Template

variable {registry : TagRegistry} {name : String} {b : Block} {ts : List Token}

/-- A block with the derivation that it comes from: that of a construct, or that of the inside tags of a
block, from one of which on it is nested. -/
inductive Derived (registry : TagRegistry) (name : String) (ts : List Token) (b : Block) : Prop
  | construct {us : List Token} (hus : us <:+: ts) (h : Construct registry name us [b]) : Derived registry name ts b
  | inside {us : List Token} {family : String} {front rest : List Branch} {c : Branch} (hus : us <:+: ts)
      (h : Insides registry name family us (front ++ c :: rest)) (hb : b = c.block (nest rest)) :
      Derived registry name ts b

theorem Derived.widen {us : List Token} (h : Derived registry name us b) (hus : us <:+: ts) :
    Derived registry name ts b := by
  cases h with
  | construct h hc => exact .construct (h.trans hus) hc
  | inside h hi hb => exact .inside (h.trans hus) hi hb

mutual

/-- Each block below a construct has a derivation from tokens of the construct. -/
theorem Construct.derived {ts : List Token} {bs : List Block} (ho : b.Occurs bs) :
    Construct registry name ts bs → Derived registry name ts b
  | .text h => by
    rcases ho with h' | ⟨h', -⟩
    · cases List.mem_singleton.1 h'
      exact .construct List.infix_rfl (.text h)
    · cases List.mem_singleton.1 h'
  | .comment h => absurd ho Block.not_occurs_nil
  | .output h hp => by
    rcases ho with h' | ⟨h', -⟩
    · cases List.mem_singleton.1 h'
      exact .construct List.infix_rfl (.output h hp)
    · cases List.mem_singleton.1 h'
  | .singular h hp => by
    rcases Block.occurs_tag.1 ho with rfl | ho
    · exact .construct List.infix_rfl (.singular h hp)
    · exact absurd ho Block.not_occurs_nil
  | .block h hp hc hi hclose hq => by
    rename_i p q t c start body inner close bs branches
    -- the block itself, what follows its first tag, one of its inside tags, or what follows one of those
    have hinner : inner <:+: start ++ body ++ inner ++ close := ⟨start ++ body, close, rfl⟩
    rcases Block.occurs_tag.1 ho with rfl | ho
    · exact .construct List.infix_rfl (.block h hp hc hi hclose hq)
    · rcases Block.occurs_append.1 ho with ho | ho
      · exact (hc.derived ho).widen ⟨start, inner ++ close, by simp⟩
      · rcases ho.of_nest with ⟨front, e, rest, rfl, hb⟩ | ⟨e, he, ho⟩
        · exact .inside hinner hi hb
        · exact (hi.derived he ho).widen hinner

theorem Content.derived {ts : List Token} {bs : List Block} (ho : b.Occurs bs) :
    Content registry name ts bs → Derived registry name ts b
  | .nil => absurd ho Block.not_occurs_nil
  | .snoc h hc => by
    rcases Block.occurs_append.1 ho with ho | ho
    · exact (h.derived ho).widen (List.prefix_append ..).isInfix
    · exact (hc.derived ho).widen (List.suffix_append ..).isInfix

theorem Insides.derived {family : String} {ts : List Token} {branches : List Branch} {c : Branch}
    (hc : c ∈ branches) (ho : b.Occurs c.body) :
    Insides registry name family ts branches → Derived registry name ts b
  | .nil => nomatch hc
  | .snoc h hf ht hp hbody => by
    rename_i ts us body branches p t bs
    rcases List.mem_append.1 hc with hc | hc
    · exact (h.derived hc ho).widen ⟨[], us ++ body, by simp⟩
    · cases List.mem_singleton.1 hc
      exact (hbody.derived ho).widen (List.suffix_append ..).isInfix

end

/-- A block that is no inside tag is a construct. -/
theorem Derived.of_not_inside (h : Derived registry name ts b) (hb : b.isInside = false) :
    ∃ us, us <:+: ts ∧ Construct registry name us [b] := by
  cases h with
  | construct hus h => exact ⟨_, hus, h⟩
  | inside hus h hblock =>
    rename_i us family front rest c
    have hrole := (h.branch c (by simp)).1
    rw [hblock, Branch.block, Block.isInside, hrole] at hb
    cases hb

/-- Each inside tag of a block stands among its tokens. -/
theorem Insides.tagTokens_infix {family : String} {branches : List Branch}
    (h : Insides registry name family ts branches) :
    ∀ c ∈ branches, ∃ us, us <:+: ts ∧ TagTokens registry name us ⟨c.plugin, .inside⟩ c.tag := by
  induction branches using List.reverseRecOn generalizing ts with
  | nil => simp
  | append_singleton branches b ih =>
    obtain ⟨us, vs, body, rfl, hi, -, ht, -, -⟩ := h.of_concat
    intro c hc
    rcases List.mem_append.1 hc with hc | hc
    · obtain ⟨ws, hws, ht⟩ := ih hi c hc
      exact ⟨ws, hws.trans ⟨[], vs ++ body, by simp⟩, ht⟩
    · cases List.mem_singleton.1 hc
      exact ⟨vs, ⟨us, body, rfl⟩, ht⟩

/-- The tag of a block stands among the tokens from which the block is derived. -/
theorem Derived.tagTokens_infix {p : TagPlugin} {t : Tag} {cs : List Block}
    (h : Derived registry name ts (.tag p t cs)) : ∃ us role, us <:+: ts ∧ TagTokens registry name us ⟨p, role⟩ t := by
  cases h with
  | construct hus h =>
    generalize hbs : [Block.tag p t cs] = bs at h
    cases h with
    | text h => cases hbs
    | comment h => cases hbs
    | output h hp => cases hbs
    | singular h hp =>
      cases hbs
      exact ⟨_, _, hus, h⟩
    | block h hp hb hi hc hq =>
      cases hbs
      rename_i start body inner close bs branches
      exact ⟨_, _, List.IsInfix.trans ⟨[], body ++ inner ++ close, by simp⟩ hus, h⟩
  | inside hus h hb =>
    rename_i us family front rest c
    obtain ⟨vs, hvs, ht⟩ := h.tagTokens_infix c (by simp)
    cases hb
    exact ⟨vs, _, hvs.trans hus, ht⟩

/-- The name of the tag of a block is routed to the plugin of the block. -/
theorem Derived.tagTokens {p : TagPlugin} {t : Tag} {cs : List Block} (h : Derived registry name ts (.tag p t cs)) :
    ∃ us role, TagTokens registry name us ⟨p, role⟩ t := by
  obtain ⟨us, role, -, ht⟩ := h.tagTokens_infix
  exact ⟨us, role, ht⟩

/-! ## Blocks of a content -/

/-- A block that may stand in the content: a text, an output, or a tag that opens. -/
def Stands (registry : TagRegistry) : Block → Prop
  | .tag p t _ => t.role = .opening ∧ registry.route? t.name = some ⟨p, .opening⟩
  | .bare => False
  | _ => True

theorem Stands.isInside (h : Stands registry b) : b.isInside = false := by
  cases b with
  | tag p t cs => rw [Block.isInside, h.1]; rfl
  | text s => rfl
  | output source line => rfl
  | bare => rfl

theorem Construct.stands {ts : List Token} {bs : List Block} (h : Construct registry name ts bs) :
    ∀ b ∈ bs, Stands registry b := by
  intro b hb
  cases h with
  | text h => cases List.mem_singleton.1 hb; trivial
  | comment h => cases hb
  | output h hp => cases List.mem_singleton.1 hb; trivial
  | singular h hp => cases List.mem_singleton.1 hb; exact ⟨h.role, h.routed⟩
  | block h hp hc hi hclose hq => cases List.mem_singleton.1 hb; exact ⟨h.role, h.routed⟩

theorem Content.stands {ts : List Token} {bs : List Block} :
    Content registry name ts bs → ∀ b ∈ bs, Stands registry b
  | .nil => nofun
  | .snoc h hc => fun b hb => by
    rcases List.mem_append.1 hb with hb | hb
    · exact h.stands b hb
    · exact hc.stands b hb

end Template

end TemplateEngine

/-
The tree of a template lists the constructs of its text: each text as it stands, each output without the
white space around it, each tag that opens or continues a block by its name and signature, in the order of
the text and with the line that the line ends before it give. Nothing else has a node.
-/
import TemplateEngine.Proofs.Tag.Markup
import TemplateEngine.Proofs.Template.Nodes
import TemplateEngine.Proofs.Template.Reading
import TemplateEngine.Tag.If

namespace TemplateEngine.Template

variable {registry : TagRegistry} {name : String} {before : List Char}

/-! ## Lists of constructs -/

/-- Tokens that follow some characters, cut into constructs, and what the nodes of the constructs hold.
Comments and closing tags have no node. -/
inductive Listing (registry : TagRegistry) (name : String) : List Char → List Token → List NodeContent → Prop
  | nil {before : List Char} : Listing registry name before [] []
  | text {before : List Char} {t : Token} {ts : List Token} {cs : List NodeContent} (h : t.kind = .text)
      (hts : Listing registry name (before ++ t.value.toList) ts cs) :
      Listing registry name before (t :: ts) (.text t.value :: cs)
  | comment {before : List Char} {us ts : List Token} {cs : List NodeContent} (h : Comment us)
      (hts : Listing registry name (before ++ spelling us) ts cs) : Listing registry name before (us ++ ts) cs
  | output {before : List Char} {p : Token} {us ts : List Token} {cs : List NodeContent}
      (h : Enclosed .outputOpen .outputClose p us)
      (hts : Listing registry name (before ++ spelling us) ts cs) :
      Listing registry name before (us ++ ts) (.output (Text.trim p.value) (1 + lineEnds before) :: cs)
  | tag {before : List Char} {p : Token} {us ts : List Token} {cs : List NodeContent} {route : TagRoute} {t : Tag}
      (h : Enclosed .tagOpen .tagClose p us) (hm : t.markup.Spelled p.value)
      (hr : registry.route? t.name = some route) (hc : route.role ≠ .closing) (hrole : t.role = route.role)
      (ha : TagRoute.Reads route t.markup t.args) (hl : t.line = 1 + lineEnds before) (hn : t.template = name)
      (hts : Listing registry name (before ++ spelling us) ts cs) :
      Listing registry name before (us ++ ts) (.tag route.plugin t :: cs)
  | closing {before : List Char} {p : Token} {us ts : List Token} {cs : List NodeContent} {route : TagRoute}
      {m : TagMarkup} (h : Enclosed .tagOpen .tagClose p us) (hm : m.Spelled p.value)
      (hr : registry.route? m.name = some route) (hc : route.role = .closing)
      (hts : Listing registry name (before ++ spelling us) ts cs) : Listing registry name before (us ++ ts) cs

theorem Listing.append {ts us : List Token} {cs ds : List NodeContent} (h : Listing registry name before ts cs)
    (h' : Listing registry name (before ++ spelling ts) us ds) : Listing registry name before (ts ++ us) (cs ++ ds) := by
  induction h with
  | nil => simpa using h'
  | text h _ ih => exact .text h (ih (by simpa using h'))
  | comment h _ ih =>
    rw [List.append_assoc]
    exact .comment h (ih (by simpa using h'))
  | output h _ ih =>
    rw [List.append_assoc]
    exact .output h (ih (by simpa using h'))
  | tag h hm hr hc hrole ha hl hn _ ih =>
    rw [List.append_assoc]
    exact .tag h hm hr hc hrole ha hl hn (ih (by simpa using h'))
  | closing h hm hr hc _ ih =>
    rw [List.append_assoc]
    exact .closing h hm hr hc (ih (by simpa using h'))

/-! ## Lines -/

/-- Tokens that follow some characters of a text: each knows its line, and delimiters are spelled as such. -/
structure Lexed (before : List Char) (ts : List Token) : Prop where
  numbered : Numbered (1 + lineEnds before) ts
  delimiters : ∀ t ∈ ts, ∀ d, t.kind = .delimiter d → t.value.toList = d.chars

theorem lexed_tokens (text : String) : Lexed [] (tokens text) :=
  ⟨numbered_tokens text, fun _ ht _ hd => value_of_mem_tokens ht hd⟩

theorem lexed_append {ts us : List Token} :
    Lexed before (ts ++ us) ↔ Lexed before ts ∧ Lexed (before ++ spelling ts) us := by
  constructor
  · rintro ⟨hn, hd⟩
    obtain ⟨hts, hus⟩ := numbered_append.1 hn
    rw [Nat.add_assoc, ← lineEnds_append] at hus
    exact ⟨⟨hts, fun t ht => hd t (List.mem_append_left _ ht)⟩, hus, fun t ht => hd t (List.mem_append_right _ ht)⟩
  · rintro ⟨⟨hts, hd⟩, hus, hd'⟩
    rw [lineEnds_append, ← Nat.add_assoc] at hus
    refine ⟨numbered_append.2 ⟨hts, hus⟩, fun t ht => ?_⟩
    rcases List.mem_append.1 ht with ht | ht
    · exact hd t ht
    · exact hd' t ht

theorem lineEnds_chars (d : Delimiter) : lineEnds d.chars = 0 := by
  cases d <;> rfl

/-- The payload of a construct stands on the line of its opening delimiter. -/
theorem Enclosed.line_eq {left right : Delimiter} {p : Token} {us : List Token} (h : Enclosed left right p us)
    (hl : Lexed before us) : p.line = 1 + lineEnds before := by
  obtain ⟨ho, -, -⟩ := h
  obtain ⟨-, hp, -⟩ := hl.numbered
  rw [hp, hl.delimiters _ (List.mem_cons_self ..) _ ho, lineEnds_chars, Nat.add_zero]

/-! ## The list of a derivation -/

/-- The nodes of nested branches: each tag, and then what follows it. -/
theorem contentsAll_nest (branches : List Branch) :
    Block.contentsAll (nest branches) =
      branches.flatMap fun b => .tag b.plugin b.tag :: Block.contentsAll b.body := by
  induction branches with
  | nil => rfl
  | cons b branches ih =>
    rw [nest_cons, Block.contentsAll, Branch.block, Block.contents, Block.contentsAll_append, ih, Block.contentsAll,
      List.append_nil, List.flatMap_cons, List.cons_append]

theorem TagTokens.listing {us : List Token} {route : TagRoute} {t : Tag} (h : TagTokens registry name us route t)
    (hc : route.role ≠ .closing) (hl : Lexed before us) : Listing registry name before us [.tag route.plugin t] := by
  obtain ⟨p, hp, hm, hline⟩ := h.tokens
  rw [← List.append_nil us]
  exact .tag hp (TagMarkup.spelled_of_ofPayload? hm) h.routed hc h.role h.reads (hline.trans (hp.line_eq hl))
    h.template .nil

theorem TagTokens.listing_closing {us : List Token} {route : TagRoute} {t : Tag}
    (h : TagTokens registry name us route t) (hc : route.role = .closing) : Listing registry name before us [] := by
  obtain ⟨p, hp, hm, -⟩ := h.tokens
  rw [← List.append_nil us]
  exact .closing hp (TagMarkup.spelled_of_ofPayload? hm) h.routed hc .nil

mutual

theorem Construct.listing {ts : List Token} {bs : List Block} {before : List Char} (hl : Lexed before ts) :
    Construct registry name ts bs → Listing registry name before ts (Block.contentsAll bs)
  | .text h => .text h .nil
  | .comment h => by
    rw [← List.append_nil ts]
    exact .comment h .nil
  | .output h _ => by
    rw [← List.append_nil ts, h.line_eq hl]
    exact .output h .nil
  | .singular h _ => h.listing nofun hl
  | .block h _ hb hi hc _ => by
    rename_i p q t c start body inner close bs branches
    obtain ⟨hl, hclose⟩ := lexed_append.1 hl
    obtain ⟨hl, hinner⟩ := lexed_append.1 hl
    obtain ⟨hstart, hbody⟩ := lexed_append.1 hl
    rw [contentsAll_nest, List.flatMap_cons, ← List.append_nil (_ ++ List.flatMap _ _)]
    refine .append (.append ?_ (hi.listing hinner)) (hc.listing_closing rfl)
    exact (h.listing nofun hstart).append (hb.listing hbody)

theorem Content.listing {ts : List Token} {bs : List Block} {before : List Char} (hl : Lexed before ts) :
    Content registry name ts bs → Listing registry name before ts (Block.contentsAll bs)
  | .nil => .nil
  | .snoc h hc => by
    obtain ⟨hts, hus⟩ := lexed_append.1 hl
    rw [Block.contentsAll_append]
    exact (h.listing hts).append (hc.listing hus)

theorem Insides.listing {family : String} {ts : List Token} {branches : List Branch} {before : List Char}
    (hl : Lexed before ts) :
    Insides registry name family ts branches → Listing registry name before ts
      (branches.flatMap fun b => .tag b.plugin b.tag :: Block.contentsAll b.body)
  | .nil => .nil
  | .snoc h _ ht _ hb => by
    obtain ⟨hl, hbody⟩ := lexed_append.1 hl
    obtain ⟨hts, hus⟩ := lexed_append.1 hl
    rw [List.flatMap_append, List.flatMap_cons, List.flatMap_nil, List.append_nil]
    rw [List.append_assoc]
    refine (h.listing hts).append ?_
    exact (ht.listing nofun hus).append (by simpa using hb.listing hbody)

end

/-- The tree of a template that has been read: the walk from the root visits the nodes in the order of
their numbers, and after the root come the constructs of the text, one for one. -/
theorem nodes_of_read {registry : TagRegistry} {text name : String} {t : Template}
    (h : Template.read registry text name = .ok t) :
    (Tree.ofTemplate t).walk 0 = List.range (Tree.ofTemplate t).size ∧
    spelling (tokens text) = text.toList ∧
    ∃ contents, ((Tree.ofTemplate t).walk 0).map (Tree.ofTemplate t).content? = (.root :: contents).map some ∧
      Listing registry name [] (tokens text) contents :=
  ⟨Tree.walk_ofTemplate t, spelling_tokens text, _, Tree.map_content?_walk t,
    (read_eq_ok.1 h).2.listing (lexed_tokens text)⟩

/-- The text `{% if a %}x {% else %}{{ y }}{# z #}{% endif %}`, with a line end before the second tag. -/
def branchesText : String :=
  "\x7b% if a %\x7dx\n\x7b% else %\x7d\x7b\x7b y \x7d\x7d\x7b# z #\x7d\x7b% endif %\x7d"

theorem nodes_of_read_branches : ∃ t,
    Template.read (TagRegistry.addAll {} [IfTag.plugin]) branchesText "t" = .ok t ∧
    (Tree.ofTemplate t).walk 0 = List.range (Tree.ofTemplate t).size ∧
    spelling (tokens branchesText) = branchesText.toList ∧
    ∃ contents, ((Tree.ofTemplate t).walk 0).map (Tree.ofTemplate t).content? = (.root :: contents).map some ∧
      Listing (TagRegistry.addAll {} [IfTag.plugin]) "t" [] (tokens branchesText) contents := by
  let inner : Block := .tag IfTag.plugin ⟨"else", .inside, "", .none, 2, "t"⟩ [.output "y" 2]
  let block : Block := .tag IfTag.plugin ⟨"if", .opening, "a", .expr (.name "a"), 1, "t"⟩ [.text "x\n", inner]
  have hread : Template.read (TagRegistry.addAll {} [IfTag.plugin]) branchesText "t" = .ok ⟨"t", [block]⟩ := by
    with_unfolding_all rfl
  exact ⟨_, hread, nodes_of_read hread⟩

end TemplateEngine.Template

/-
The text of a tag. A tag that was read has no delimiter in its name and in its signature, and no white space where the
two meet the blanks that they are written with; so its text is again cut into one payload between two delimiters, and
the payload is split into the same name and the same signature.
-/
import TemplateEngine.Proofs.Template.Output
import TemplateEngine.Proofs.Template.Segmentation
import TemplateEngine.Proofs.Template.TreeShape

namespace TemplateEngine

open Template Text

/-! ## Markup between blanks -/

namespace TagMarkup

/-- The markup as it is written, apart from the delimiters and the blanks next to them. -/
def inner (m : TagMarkup) : List Char :=
  m.name.toList ++ if m.signature = "" then [] else ' ' :: m.signature.toList

variable {m : TagMarkup} {payload : String}

theorem isBlank_space : isBlank ' ' = true := by decide

theorem Spelled.trim_inner (h : m.Spelled payload) :
    (trim (m.name ++ " " ++ m.signature)).toList = m.inner := by
  have hlist : (m.name ++ " " ++ m.signature).toList = m.name.toList ++ ' ' :: m.signature.toList := by simp
  rw [trim, String.toList_ofList, hlist, inner]
  split
  · rename_i hsig
    have hhead (c : Char) (hc : c ∈ m.name.toList.head?) : isBlank c = false := h.name c (List.mem_of_mem_head? hc)
    have hlast (c : Char) (hc : c ∈ m.name.toList.getLast?) : isBlank c = false :=
      h.name c (List.mem_of_mem_getLast? hc)
    rw [hsig, String.toList_empty, trimBy_concat isBlank_space, trimBy_eq_self hhead hlast, List.append_nil]
  · rename_i hsig
    have hne : m.signature.toList ≠ [] := mt String.toList_eq_nil_iff.1 hsig
    refine trimBy_eq_self (fun c hc => ?_) fun c hc => ?_
    · rw [List.head?_append_of_ne_nil _ h.name_ne_nil] at hc
      exact h.name c (List.mem_of_mem_head? hc)
    · rw [List.getLast?_append_of_ne_nil _ (List.cons_ne_nil _ _), List.getLast?_cons_of_ne_nil hne] at hc
      exact h.last c hc

theorem Spelled.toList_text (h : m.Spelled payload) :
    m.text.toList = Delimiter.tagOpen.chars ++ (' ' :: (m.inner ++ [' ']) ++ Delimiter.tagClose.chars) := by
  unfold text
  rw [String.toList_append, String.toList_append, h.trim_inner]
  simp [Delimiter.chars]

/-- The blank between the name and the signature makes no delimiter with them. -/
theorem Spelled.undivided (h : m.Spelled payload) (hp : Undivided payload.toList) : Undivided m.inner := by
  obtain ⟨lead, gap, trail, hpayload, -, -⟩ := h.parts
  rw [hpayload] at hp
  have hname : Undivided m.name.toList := hp.infix ⟨lead, gap ++ m.signature.toList ++ trail, by simp⟩
  have hsig : Undivided m.signature.toList := hp.infix ⟨lead ++ m.name.toList ++ gap, trail, by simp⟩
  have hleft (c : Char) : Delimiter.ofChars? ' ' c = none := by simp [Delimiter.ofChars?]
  have hright (c : Char) : Delimiter.ofChars? c ' ' = none := by simp [Delimiter.ofChars?]
  unfold inner Undivided
  split
  · rwa [List.append_nil]
  · rw [List.isChain_append, List.isChain_cons]
    exact ⟨hname, ⟨fun c _ => hleft c, hsig⟩, fun c _ d hd => Option.some.inj hd ▸ hright c⟩

/-- Behind the name stands a blank, and the signature is what is left without the blanks around it. -/
theorem Spelled.ofPayload?_inner (h : m.Spelled payload) :
    ofPayload? (String.ofList (' ' :: (m.inner ++ [' ']))) = some m := by
  obtain ⟨rest, hinner, hrest⟩ : ∃ rest, m.inner ++ [' '] = m.name.toList ++ ' ' :: rest ∧
      trimBy isBlank (' ' :: rest) = m.signature.toList := by
    unfold inner
    split
    · rename_i hsig
      exact ⟨[], by rw [List.append_nil], by rw [hsig]; decide⟩
    · refine ⟨m.signature.toList ++ [' '], by simp, ?_⟩
      rw [trimBy_cons isBlank_space, trimBy_concat isBlank_space, trimBy_eq_self h.head h.last]
  have hword : ∀ c ∈ m.name.toList, (!isBlank c) = true := fun c hc => by rw [h.name c hc]; rfl
  have hstart : (' ' :: (m.name.toList ++ ' ' :: rest)).dropWhile isBlank = m.name.toList ++ ' ' :: rest := by
    rw [List.dropWhile_cons_of_pos isBlank_space]
    cases hname : m.name.toList with
    | nil => exact absurd hname h.name_ne_nil
    | cons c cs =>
      refine List.dropWhile_cons_of_neg ?_
      rw [h.name c (by rw [hname]; exact List.mem_cons_self ..)]
      exact Bool.false_ne_true
  have htake : (m.name.toList ++ ' ' :: rest).takeWhile (!isBlank ·) = m.name.toList := by
    rw [List.takeWhile_append_of_pos hword, List.takeWhile_cons_of_neg (by decide), List.append_nil]
  have hdrop : (m.name.toList ++ ' ' :: rest).dropWhile (!isBlank ·) = ' ' :: rest := by
    rw [List.dropWhile_append_of_pos hword, List.dropWhile_cons_of_neg (by decide)]
  have hne : m.name.toList.isEmpty = false := by
    rw [List.isEmpty_eq_false_iff]
    exact h.name_ne_nil
  unfold ofPayload?
  rw [String.toList_ofList, hinner, hstart]
  dsimp only
  rw [htake, hdrop, hrest, hne, String.ofList_toList, String.ofList_toList]
  rfl

end TagMarkup

/-! ## Tags of a tree -/

namespace Template

variable {registry : TagRegistry} {name : String} {p : TagPlugin}

/-- A text token of a text is not divided by a delimiter. -/
theorem undivided_of_mem_tokens {text : String} {t : Token} (ht : t ∈ tokens text) (hk : t.kind = .text) :
    Undivided t.value.toList := by
  have hpiece : .text t.value.toList ∈ pieces text.toList := by
    rw [← Token.piece_of_text hk, ← map_piece_number 1 (pieces text.toList)]
    exact List.mem_map_of_mem ht
  exact undivided_of_mem_pieces hpiece

/-- The text of a markup is one payload between the delimiters of a tag, and spells the markup. -/
theorem tokens_text {m : TagMarkup} {payload : String} (h : m.Spelled payload) (hp : Undivided payload.toList) :
    ∃ p, tokens m.text = [⟨.delimiter .tagOpen, "\x7b%", 1⟩, ⟨.text, p, 1⟩,
        ⟨.delimiter .tagClose, "%\x7d", 1 + lineEnds p.toList⟩] ∧ TagMarkup.ofPayload? p = some m := by
  refine ⟨_, ?_, h.ofPayload?_inner⟩
  have hpiece := pieces_of_undivided (undivided_spaced.2 (h.undivided hp)) (List.cons_ne_nil _ _)
  have hpieces := pieces_enclosed .tagOpen .tagClose m.inner
  rw [tokens, h.toList_text, hpieces, hpiece, String.toList_ofList]
  rfl

namespace Reader

/-- A payload that is split into the markup of a tag makes the same tag again, on its line of its template. -/
theorem addTag_of_tagTokens {us : List Token} {role : TagRole} {t : Tag} (h : TagTokens registry name us ⟨p, role⟩ t)
    {payload : Token} (hm : TagMarkup.ofPayload? payload.value = some t.markup) (template : String) (closing : Token)
    (r : Reader) :
    ({ r with payload := some payload } : Reader).addTag registry template closing =
      placeTag template ⟨p, role⟩ { t with line := payload.line, template := template } { r with payload := none } := by
  have hmade : makeTag template payload.line ⟨p, role⟩ t.markup =
      .ok { t with line := payload.line, template := template } :=
    makeTag_eq_ok.2 ⟨rfl, h.role, rfl, rfl, h.reads⟩
  have hroute : registry.route t.markup.name template (some payload.line) = .ok ⟨p, role⟩ := by
    unfold TagRegistry.route
    rw [show t.markup.name = t.name from rfl, h.routed]
  unfold addTag
  simp only [Option.map_some, Option.getD_some, Option.bind_some, hm, hroute, ok_bind, hmade]

end Reader

/-- The text of each tag of a template that was read has one payload, and taking this payload in, below any tags and
in a template of any name, asks for the place of the same tag with the same arguments. -/
theorem tag_text_read_back {text : String} {t : Template} (hread : Template.read registry text name = .ok t) {n : Nat}
    {tag : Tag} (hn : (Tree.ofTemplate t).content? n = some (.tag p tag)) :
    ∃ payload, tokens tag.markup.text = [⟨.delimiter .tagOpen, "\x7b%", 1⟩, ⟨.text, payload, 1⟩,
        ⟨.delimiter .tagClose, "%\x7d", 1 + lineEnds payload.toList⟩] ∧
      TagMarkup.ofPayload? payload = some tag.markup ∧
      registry.route? tag.name = some ⟨p, tag.role⟩ ∧
      ∀ (template : String) (closing : Token) (r : Reader),
        ({ r with payload := some ⟨.text, payload, 1⟩ } : Reader).addTag registry template closing =
          Reader.placeTag template ⟨p, tag.role⟩ { tag with line := 1, template := template }
            { r with payload := none } := by
  obtain ⟨q, front, cs, rest, hrow, -, -⟩ := Tree.exists_tag_row hn
  have hoccurs := hrow.occurs (List.mem_append_right _ (List.mem_cons_self ..))
  have hderived := (read_eq_ok.1 hread).2.derived hoccurs
  obtain ⟨us, role, hus, htag⟩ := hderived.tagTokens_infix
  obtain ⟨source, ⟨ho, hkind, hc⟩, hsource, -⟩ := htag.tokens
  have hundivided : Undivided source.value.toList := undivided_of_mem_tokens (hus.subset (by simp)) hkind
  obtain ⟨payload, htokens, hpayload⟩ := tokens_text (TagMarkup.spelled_of_ofPayload? hsource) hundivided
  obtain rfl : tag.role = role := htag.role
  exact ⟨payload, htokens, hpayload, htag.routed, Reader.addTag_of_tagTokens htag hpayload⟩

/-- A tag whose name and condition stand on lines of their own. -/
def spreadText : String :=
  "\x7b%\n if\n\t a and\n b %\x7dx\x7b% endif %\x7d"

theorem tag_text_read_back_spread : ∃ t,
    Template.read (TagRegistry.addAll {} [IfTag.plugin]) spreadText "t" = .ok t ∧ ∃ tag : Tag,
      (Tree.ofTemplate t).content? 1 = some (.tag IfTag.plugin tag) ∧ tag.name = "if" ∧ tag.signature = "a and\n b" ∧
      ∃ payload, tokens tag.markup.text = [⟨.delimiter .tagOpen, "\x7b%", 1⟩, ⟨.text, payload, 1⟩,
          ⟨.delimiter .tagClose, "%\x7d", 1 + lineEnds payload.toList⟩] ∧
        TagMarkup.ofPayload? payload = some tag.markup ∧
        (TagRegistry.addAll {} [IfTag.plugin]).route? tag.name = some ⟨IfTag.plugin, tag.role⟩ ∧
        ∀ (template : String) (closing : Token) (r : Reader),
          ({ r with payload := some ⟨.text, payload, 1⟩ } : Reader).addTag (TagRegistry.addAll {} [IfTag.plugin])
              template closing =
            Reader.placeTag template ⟨IfTag.plugin, tag.role⟩ { tag with line := 1, template := template }
              { r with payload := none } := by
  let tag : Tag :=
    ⟨"if", .opening, "a and\n b", .expr (.logical .and (.name "a") (.name "b")), 1, "t"⟩
  have hread : Template.read (TagRegistry.addAll {} [IfTag.plugin]) spreadText "t" =
      .ok ⟨"t", [.tag IfTag.plugin tag [.text "x"]]⟩ := by
    with_unfolding_all rfl
  have hnode : (Tree.ofTemplate ⟨"t", [.tag IfTag.plugin tag [.text "x"]]⟩).content? 1 =
      some (.tag IfTag.plugin tag) := by
    with_unfolding_all rfl
  exact ⟨_, hread, tag, hnode, rfl, rfl, tag_text_read_back hread hnode⟩

end Template

end TemplateEngine

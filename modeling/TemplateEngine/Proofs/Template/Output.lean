/-
Outputs. A text without delimiters stays in one piece, and only such a text can stand between the delimiters of an
output; so a text between them is read as one output with that text exactly if no two of its neighbours make a
delimiter.
-/
import TemplateEngine.Proofs.Tag.Markup
import TemplateEngine.Proofs.Template.Splice

namespace TemplateEngine.Template

/-! ## Texts of one piece -/

/-- No two neighbours make a delimiter. -/
def Undivided (cs : List Char) : Prop :=
  cs.IsChain fun c d => Delimiter.ofChars? c d = none

instance (cs : List Char) : Decidable (Undivided cs) :=
  inferInstanceAs (Decidable (cs.IsChain fun c d => Delimiter.ofChars? c d = none))

theorem pieces_of_undivided {cs : List Char} (h : Undivided cs) (hne : cs ≠ []) : pieces cs = [.text cs] := by
  fun_induction pieces cs with
  | case1 => exact absurd rfl hne
  | case2 c => rfl
  | case3 c d cs k hk ih =>
    have hnone := (List.isChain_cons_cons.1 h).1
    rw [hk] at hnone
    cases hnone
  | case4 c d cs hk ih =>
    rw [ih (List.isChain_cons_cons.1 h).2 (List.cons_ne_nil d cs)]
    rfl

theorem undivided_of_pieces {cs ds : List Char} (h : pieces cs = [.text ds]) : Undivided cs := by
  fun_induction pieces cs generalizing ds with
  | case1 => exact .nil
  | case2 c => exact .singleton c
  | case3 c d cs k hk ih => cases h
  | case4 c d cs hk ih =>
    refine List.isChain_cons_cons.2 ⟨hk, ?_⟩
    unfold consChar at h
    split at h
    · rename_i es ps hps
      obtain ⟨-, rfl⟩ := List.cons.inj h
      exact ih hps
    · rename_i ps hno
      obtain ⟨-, hps⟩ := List.cons.inj h
      have hspelling := spelling_pieces (d :: cs)
      rw [hps] at hspelling
      cases hspelling

/-- The texts that a text is cut into hold no delimiter. -/
theorem undivided_of_mem_pieces {cs ds : List Char} (h : .text ds ∈ pieces cs) : Undivided ds := by
  fun_induction pieces cs generalizing ds with
  | case1 => cases h
  | case2 c =>
    cases List.mem_singleton.1 h
    exact .singleton c
  | case3 c d cs k hk ih =>
    rcases List.mem_cons.1 h with h | h
    · cases h
    · exact ih h
  | case4 c d cs hk ih =>
    have hspelling := spelling_pieces (d :: cs)
    unfold consChar at h
    split at h
    · rename_i es ps hps
      rw [hps] at ih hspelling
      rcases List.mem_cons.1 h with h | h
      · cases h
        cases es with
        | nil => exact .singleton c
        | cons e es =>
          -- the text that goes on behind the character starts with the next one
          cases hspelling
          exact List.isChain_cons_cons.2 ⟨hk, ih (List.mem_cons_self ..)⟩
      · exact ih (List.mem_cons_of_mem _ h)
    · rcases List.mem_cons.1 h with h | h
      · cases h
        exact .singleton c
      · exact ih h

/-- A blank has no part in a delimiter. -/
theorem undivided_spaced {cs : List Char} : Undivided (' ' :: (cs ++ [' '])) ↔ Undivided cs := by
  have hleft (c : Char) : Delimiter.ofChars? ' ' c = none := by simp [Delimiter.ofChars?]
  have hright (c : Char) : Delimiter.ofChars? c ' ' = none := by simp [Delimiter.ofChars?]
  unfold Undivided
  rw [List.isChain_cons, List.isChain_append]
  simp [hleft, hright]

/-- A text with blanks around it is cut apart from the delimiters that it stands between. -/
theorem pieces_enclosed (left right : Delimiter) (cs : List Char) :
    pieces (left.chars ++ (' ' :: (cs ++ [' ']) ++ right.chars)) =
      .delimiter left :: (pieces (' ' :: (cs ++ [' '])) ++ [.delimiter right]) := by
  have hopen (ds : List Char) : pieces (left.chars ++ ds) = .delimiter left :: pieces ds := by
    cases left <;> exact pieces_of_delimiter rfl ds
  have hclose : pieces right.chars = [.delimiter right] := by cases right <;> rfl
  have hends : ∀ c ∈ (' ' :: (cs ++ [' '])).getLast?, ∀ d ∈ right.chars.head?, Delimiter.ofChars? c d = none := by
    intro c hc d hd
    rw [← List.cons_append, List.getLast?_concat] at hc
    cases hc
    simp [Delimiter.ofChars?]
  rw [hopen, pieces_of_ends hends, hclose, glue_delimiter]

/-- A text between the delimiters of an output is cut on its own. -/
theorem pieces_outputMarkup (source : String) : pieces (outputMarkup source).toList =
    .delimiter .outputOpen :: (pieces (' ' :: (source.toList ++ [' '])) ++ [.delimiter .outputClose]) := by
  rw [← pieces_enclosed]
  simp [outputMarkup, Delimiter.chars]

/-! ## Reading an output -/

variable {registry : TagRegistry} {name : String}

/-- Only a comment gives no block. -/
theorem Construct.comment_of_nil {ts : List Token} {bs : List Block} (h : Construct registry name ts bs)
    (hbs : bs = []) : Comment ts := by
  cases h with
  | comment h => exact h
  | block => simp at hbs
  | _ => cases hbs

/-- Only an output gives one. -/
theorem Construct.enclosed_of_output {ts : List Token} {bs : List Block} {source : String} {line : Nat}
    (h : Construct registry name ts bs) (hbs : bs = [.output source line]) :
    ∃ p, Enclosed .outputOpen .outputClose p ts ∧ Text.blank p.value = false ∧ source = Text.trim p.value ∧
      line = p.line := by
  cases h with
  | output h hp =>
    cases hbs
    exact ⟨_, h, hp, rfl, rfl⟩
  | block => simp [Branch.block] at hbs
  | _ => cases hbs

/-- What gives no blocks is nothing but comments. -/
theorem Content.head_of_nil {ts : List Token} {bs : List Block} :
    Content registry name ts bs → bs = [] → ∀ t ∈ ts.head?, t.kind = .delimiter .commentOpen
  | .nil, _ => nofun
  | .snoc h hc, hbs => by
    obtain ⟨hnil, hbs⟩ := List.append_eq_nil_iff.1 hbs
    have hfront := h.head_of_nil hnil
    obtain ⟨ho, -, -⟩ := hc.comment_of_nil hbs
    intro t ht
    rw [List.head?_append] at ht
    rcases Option.or_eq_some_iff.1 ht with ht | ⟨-, ht⟩
    · exact hfront t ht
    · cases ht
      exact ho

/-- What starts like an output and ends like one, and gives one output, is nothing but this output. -/
theorem Content.of_output {o c : Token} {ts : List Token} {source : String} {line : Nat}
    (h : Content registry name (o :: (ts ++ [c])) [.output source line]) (ho : o.kind = .delimiter .outputOpen)
    (hc : c.kind = .delimiter .outputClose) :
    ∃ p, ts = [p] ∧ p.kind = .text ∧ Text.blank p.value = false ∧ source = Text.trim p.value ∧ line = p.line := by
  generalize hts : o :: (ts ++ [c]) = all at h
  generalize hbs : [Block.output source line] = bs at h
  cases h with
  | nil => cases hts
  | snoc hfront hlast =>
    rename_i front last bs cs
    rcases List.append_eq_singleton_iff.1 hbs.symm with ⟨rfl, hcs⟩ | ⟨-, hcs⟩
    · obtain ⟨p, ⟨-, hp, -⟩, hblank, hsource, hline⟩ := hlast.enclosed_of_output hcs
      cases front with
      | nil =>
        obtain ⟨rfl, hrest⟩ := List.cons.inj hts
        have hends : ts ++ [c] = [p] ++ [_] := hrest
        obtain ⟨rfl, -⟩ := List.append_inj' hends rfl
        exact ⟨p, rfl, hp, hblank, hsource, hline⟩
      | cons t us =>
        have ht := hfront.head_of_nil rfl t rfl
        obtain ⟨rfl, -⟩ := List.cons.inj hts
        rw [ho] at ht
        cases ht
    · -- the last construct would be a comment
      obtain ⟨-, -, hclose⟩ := hlast.comment_of_nil hcs
      have hall : (o :: (ts ++ [c])).getLast? = some c := by
        rw [← List.cons_append, List.getLast?_concat]
      rw [hts, List.getLast?_append_of_ne_nil _ (List.cons_ne_nil _ _), ← List.cons_append,
        List.getLast?_concat] at hall
      cases hall
      rw [hc] at hclose
      cases hclose

theorem trim_spaced (cs : List Char) :
    Text.trim (String.ofList (' ' :: (cs ++ [' ']))) = Text.trim (String.ofList cs) := by
  have hblank : Text.isBlank ' ' = true := by decide
  unfold Text.trim
  rw [String.toList_ofList, String.toList_ofList, Text.trimBy_cons hblank, Text.trimBy_concat hblank]

/-- Pieces between the delimiters of an output are read as one output exactly if they are one text. -/
theorem content_enclosed_iff {ps : List Piece} {source : String} {line l : Nat} :
    Content registry name (number line (.delimiter .outputOpen :: (ps ++ [.delimiter .outputClose])))
        [.output source l] ↔
      ∃ cs, ps = [.text cs] ∧ Text.blank (String.ofList cs) = false ∧ source = Text.trim (String.ofList cs) ∧
        l = line := by
  constructor
  · intro h
    rw [number, number_append] at h
    obtain ⟨p, hps, hkind, hblank, hsource, hl⟩ := h.of_output rfl rfl
    cases ps with
    | nil => cases hps
    | cons q qs =>
      cases qs with
      | cons => cases hps
      | nil =>
        cases hps
        cases q with
        | delimiter d => cases hkind
        | text cs => exact ⟨cs, rfl, hblank, hsource, hl⟩
  · rintro ⟨cs, rfl, hblank, rfl, rfl⟩
    let payload : Token := ⟨.text, String.ofList cs, l⟩
    have henclosed : Enclosed .outputOpen .outputClose payload
        (number l [.delimiter .outputOpen, .text cs, .delimiter .outputClose]) :=
      .mk rfl rfl rfl
    have hconstruct := @Construct.output registry name payload _ henclosed hblank
    exact .snoc .nil hconstruct

/-- A text between the delimiters of an output is read as this output exactly if it is not divided. -/
theorem content_outputMarkup {source : String} (hsource : Text.blank source = false) :
    Content registry name (tokens (outputMarkup source)) [.output (Text.trim source) 1] ↔ Undivided source.toList := by
  have hblank : Text.blank (String.ofList (' ' :: (source.toList ++ [' ']))) = false := by
    unfold Text.blank at hsource ⊢
    rw [String.toList_ofList, List.all_cons, List.all_append, hsource, Bool.false_and, Bool.and_false]
  have htrim := trim_spaced source.toList
  rw [String.ofList_toList] at htrim
  rw [tokens, pieces_outputMarkup, content_enclosed_iff, ← undivided_spaced]
  constructor
  · rintro ⟨cs, hcs, -⟩
    exact undivided_of_pieces hcs
  · intro h
    exact ⟨_, pieces_of_undivided h (List.cons_ne_nil _ _), hblank, htrim.symm, rfl⟩

end TemplateEngine.Template

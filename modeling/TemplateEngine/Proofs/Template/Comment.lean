/-
Comments. The body of a comment is cut at delimiters like every other text, and goes up to the next closing one. An
opening brace at its end that belongs to no delimiter takes the `#` of the closing delimiter away, so that a comment
is closed by what stands behind its body iff the number of opening braces at the end of the body is even.
-/
import Mathlib.Algebra.Group.Nat.Even
import TemplateEngine.Proofs.Template.Splice

namespace TemplateEngine.Template

/-! ## Braces at the end of a text -/

/-- The number of opening braces at the end of a text. -/
def endBraces (cs : List Char) : Nat :=
  (cs.reverse.takeWhile (· == '\x7b')).length

theorem endBraces_le (cs : List Char) : endBraces cs ≤ cs.length :=
  (List.takeWhile_sublist _).length_le.trans_eq List.length_reverse

/-- A character in front counts only if it is a brace in front of nothing but braces. -/
theorem endBraces_cons (c : Char) (cs : List Char) : endBraces (c :: cs) =
    if endBraces cs = cs.length ∧ c = '\x7b' then cs.length + 1 else endBraces cs := by
  unfold endBraces
  rw [List.reverse_cons, List.takeWhile_append, List.length_reverse]
  by_cases hall : (cs.reverse.takeWhile (· == '\x7b')).length = cs.length
  · rw [if_pos hall, List.length_append, List.length_reverse]
    by_cases hc : c = '\x7b'
    · rw [if_pos ⟨hall, hc⟩]
      simp [hc]
    · rw [if_neg fun h => hc h.2, hall]
      simp [hc]
  · rw [if_neg hall, if_neg fun h => hall h.1]

/-- The last piece is a text that ends in an opening brace. -/
def EndsInBrace (ps : List Piece) : Prop :=
  ∃ cs, ps.getLast? = some (.text cs) ∧ cs.getLast? = some '\x7b'

theorem not_endsInBrace_nil : ¬ EndsInBrace [] := by
  rintro ⟨cs, h, -⟩
  cases h

theorem endsInBrace_text {cs : List Char} : EndsInBrace [.text cs] ↔ cs.getLast? = some '\x7b' := by
  constructor
  · rintro ⟨ds, h, hds⟩
    cases h
    exact hds
  · exact fun h => ⟨cs, rfl, h⟩

theorem endsInBrace_cons {p : Piece} {ps : List Piece} (h : ps ≠ []) : EndsInBrace (p :: ps) ↔ EndsInBrace ps := by
  unfold EndsInBrace
  rw [List.getLast?_cons_of_ne_nil h]

theorem endsInBrace_delimiter {d : Delimiter} {ps : List Piece} :
    EndsInBrace (.delimiter d :: ps) ↔ EndsInBrace ps := by
  cases ps with
  | nil =>
    refine iff_of_false ?_ not_endsInBrace_nil
    rintro ⟨cs, h, -⟩
    cases h
  | cons p ps => exact endsInBrace_cons (List.cons_ne_nil p ps)

theorem endsInBrace_append {ps qs : List Piece} (h : qs ≠ []) : EndsInBrace (ps ++ qs) ↔ EndsInBrace qs := by
  induction ps with
  | nil => rfl
  | cons p ps ih => exact (endsInBrace_cons (List.append_ne_nil_of_right_ne_nil ps h)).trans ih

/-- No text piece is empty. -/
theorem ne_nil_of_mem_pieces {cs ds : List Char} (h : .text ds ∈ pieces cs) : ds ≠ [] := by
  fun_induction pieces cs with
  | case1 => cases h
  | case2 c =>
    cases List.mem_singleton.1 h
    exact List.cons_ne_nil c []
  | case3 c d cs k hk ih =>
    rcases List.mem_cons.1 h with h | h
    · cases h
    · exact ih h
  | case4 c d cs hk ih =>
    unfold consChar at h
    split at h
    · rename_i es ps hps
      rcases List.mem_cons.1 h with h | h
      · cases h
        exact List.cons_ne_nil c es
      · exact ih (by rw [hps]; exact List.mem_cons_of_mem _ h)
    · rcases List.mem_cons.1 h with h | h
      · cases h
        exact List.cons_ne_nil c []
      · exact ih h

/-- A character in front of a text does not change how it ends. -/
theorem endsInBrace_consChar (c d : Char) (cs : List Char) :
    EndsInBrace (consChar c (pieces (d :: cs))) ↔ EndsInBrace (pieces (d :: cs)) := by
  have hne : ∀ ds, .text ds ∈ pieces (d :: cs) → ds ≠ [] := fun ds => ne_nil_of_mem_pieces
  have hspelling := spelling_pieces (d :: cs)
  cases hps : pieces (d :: cs) with
  | nil =>
    rw [hps] at hspelling
    cases hspelling
  | cons p ps =>
    cases p with
    | delimiter k => exact endsInBrace_cons (List.cons_ne_nil _ _)
    | text es =>
      have hes : es ≠ [] := hne es (by rw [hps]; exact List.mem_cons_self ..)
      cases ps with
      | nil =>
        show EndsInBrace [.text (c :: es)] ↔ _
        rw [endsInBrace_text, endsInBrace_text, List.getLast?_cons_of_ne_nil hes]
      | cons p ps =>
        have h := List.cons_ne_nil p ps
        exact (endsInBrace_cons h).trans (endsInBrace_cons h).symm

/-- Braces at the end are taken away in pairs, so that one is left if their number is odd. The induction follows the
cutting of the text. -/
theorem endsInBrace_pieces (cs : List Char) : EndsInBrace (pieces cs) ↔ ¬ Even (endBraces cs) := by
  rw [Nat.not_even_iff]
  fun_induction pieces cs with
  | case1 => exact iff_of_false not_endsInBrace_nil (by decide)
  | case2 c =>
    rw [endsInBrace_text, endBraces_cons]
    by_cases hc : c = '\x7b'
    · simp [hc, endBraces]
    · simp [hc, endBraces]
  | case3 c d cs k hk ih =>
    have hle := endBraces_le cs
    rw [endsInBrace_delimiter, ih, endBraces_cons, endBraces_cons, List.length_cons]
    by_cases hd : d = '\x7b'
    · -- of the delimiters only one ends in an opening brace
      have hc : c = '\x7b' := by
        subst hd
        by_contra hc
        simp [Delimiter.ofChars?, hc] at hk
      simp only [hc, hd, and_true]
      split_ifs <;> omega
    · simp only [hd, and_false, if_false]
      rw [if_neg (by omega)]
  | case4 c d cs hk ih =>
    rw [endsInBrace_consChar, ih, endBraces_cons c, if_neg]
    rintro ⟨hall, rfl⟩
    -- a brace in front of nothing but braces would make a delimiter
    rw [endBraces_cons, List.length_cons] at hall
    have hle := endBraces_le cs
    split_ifs at hall with hd
    · rw [hd.2] at hk
      cases hk
    · omega

/-! ## The end of a comment -/

/-- A delimiter is found only where its characters are. -/
theorem infix_of_mem_pieces {d : Delimiter} {cs : List Char} (h : .delimiter d ∈ pieces cs) : d.chars <:+: cs := by
  obtain ⟨ps, qs, hps⟩ := List.append_of_mem h
  refine ⟨Piece.spelling ps, Piece.spelling qs, ?_⟩
  conv_rhs => rw [← spelling_pieces cs, hps]
  simp [Piece.spelling, Piece.chars]

/-- A text that does not end in an opening brace is closed by what stands behind it. -/
theorem pieces_commentClose {cs : List Char} (h : ¬ EndsInBrace (pieces cs)) (rest : List Char) :
    pieces (cs ++ '#' :: '\x7d' :: rest) = pieces cs ++ .delimiter .commentClose :: pieces rest := by
  rcases pieces_append cs ('#' :: '\x7d' :: rest) with hg | ⟨ps, c, e, d, rest', ha⟩
  · rw [hg, pieces_of_delimiter rfl, glue_delimiter]
  · -- a delimiter across would be made of a brace
    cases ha.right
    have hc : c = '\x7b' := by
      have hd := ha.delimiter
      by_contra hc
      simp [Delimiter.ofChars?, hc] at hd
    refine absurd ?_ h
    rw [ha.pieces_left, hc]
    rcases glue_eq ps [.text ['\x7b']] with hg | ⟨front, cs', ds, rest'', rfl, hq, hg⟩
    · rw [hg, endsInBrace_append (List.cons_ne_nil _ _), endsInBrace_text]
      rfl
    · cases hq
      rw [hg, endsInBrace_append (List.cons_ne_nil _ _), endsInBrace_text]
      simp

theorem mem_consChar {c : Char} {d : Delimiter} {ps : List Piece} :
    .delimiter d ∈ consChar c ps ↔ .delimiter d ∈ ps := by
  unfold consChar
  split <;> simp

/-- An opening brace at the end takes the `#` behind it away. -/
theorem pieces_commentOpen {cs : List Char} (h : EndsInBrace (pieces cs)) (rest : List Char) :
    ∃ ps, pieces (cs ++ '#' :: rest) = ps ++ .delimiter .commentOpen :: pieces rest ∧
      ∀ d, .delimiter d ∈ ps → .delimiter d ∈ pieces cs := by
  fun_induction pieces cs with
  | case1 => exact absurd h not_endsInBrace_nil
  | case2 c =>
    obtain rfl : c = '\x7b' := by simpa using endsInBrace_text.1 h
    exact ⟨[], pieces_of_delimiter rfl rest, fun _ hd => absurd hd List.not_mem_nil⟩
  | case3 c d cs k hk ih =>
    obtain ⟨ps, hps, hmem⟩ := ih (endsInBrace_delimiter.1 h)
    refine ⟨.delimiter k :: ps, ?_, fun d hd => ?_⟩
    · rw [List.cons_append, List.cons_append, pieces_of_delimiter hk, hps, List.cons_append]
    · rcases List.mem_cons.1 hd with hd | hd
      · rw [hd]
        exact List.mem_cons_self ..
      · exact List.mem_cons_of_mem _ (hmem d hd)
  | case4 c d cs hk ih =>
    obtain ⟨ps, hps, hmem⟩ := ih ((endsInBrace_consChar c d cs).1 h)
    refine ⟨consChar c ps, ?_, fun e he => ?_⟩
    · rw [List.cons_append, List.cons_append, pieces_of_none hk, ← List.cons_append, hps, consChar_append]
    · exact mem_consChar.2 (hmem e (mem_consChar.1 he))

/-! ## Reading a comment -/

/-- The pieces of a comment. -/
def commentPieces (body : List Char) : List Piece :=
  .delimiter .commentOpen :: (pieces body ++ [.delimiter .commentClose])

theorem lineEnds_commentPieces (body : List Char) :
    lineEnds (Piece.spelling (commentPieces body)) = lineEnds body := by
  have hspelling : Piece.spelling (commentPieces body) = ['\x7b', '#'] ++ (body ++ ['#', '\x7d']) := by
    conv_rhs => rw [← spelling_pieces body]
    simp [commentPieces, Piece.spelling, Piece.chars, Delimiter.chars]
  rw [hspelling, lineEnds_append, lineEnds_append, show lineEnds ['\x7b', '#'] = 0 from rfl,
    show lineEnds ['#', '\x7d'] = 0 from rfl, Nat.zero_add, Nat.add_zero]

/-- A text that does not end in an opening brace goes before a comment, and any text behind it. -/
theorem pieces_comment {pre body : List Char} (hpre : pre.getLast? ≠ some '\x7b') (hbody : ¬ EndsInBrace (pieces body))
    (post : List Char) : pieces (pre ++ '\x7b' :: '#' :: (body ++ '#' :: '\x7d' :: post)) =
      pieces pre ++ (commentPieces body ++ pieces post) := by
  have hends : ∀ c ∈ pre.getLast?, ∀ d ∈ ('\x7b' :: '#' :: (body ++ '#' :: '\x7d' :: post)).head?,
      Delimiter.ofChars? c d = none := by
    rintro c hc d ⟨⟩
    have hne : c ≠ '\x7b' := fun h => hpre (h ▸ hc)
    exact ofChars?_eq_none hne (by decide)
  rw [pieces_of_ends hends, pieces_of_delimiter rfl, glue_delimiter, pieces_commentClose hbody, commentPieces]
  simp

variable {registry : TagRegistry} {name : String}

theorem mem_of_mem_number {line : Nat} {ps : List Piece} {t : Token} {d : Delimiter} (ht : t ∈ number line ps)
    (hd : t.kind = .delimiter d) : .delimiter d ∈ ps := by
  have hkind : t.kind ∈ ps.map Piece.kind := by
    rw [← map_kind_number line]
    exact List.mem_map_of_mem ht
  obtain ⟨p, hp, hk⟩ := List.mem_map.1 hkind
  rw [hd] at hk
  cases p with
  | text cs => cases hk
  | delimiter e => cases hk; exact hp

/-- The pieces of a comment are a construct without blocks. -/
theorem content_comment {body : List Char} (hbody : .delimiter .commentClose ∉ pieces body) (line : Nat) :
    Content registry name (number line (commentPieces body)) [] := by
  have hcomment : Comment (number line (commentPieces body)) := by
    rw [commentPieces, number, number_append]
    exact .mk rfl (fun t ht hk => hbody (mem_of_mem_number ht hk)) rfl
  have hcontent := Content.snoc (@Content.nil registry name) (.comment hcomment)
  simpa using hcontent

/-- A comment may be put anywhere in the content; what stands behind it moves down by its lines. -/
theorem Gives.insert_comment {K : RowCongruence} (hK : K.Covers registry) (hn : K.Names name name)
    (hl : ∀ line, K.Lines line line) {ps qs : List Piece} {bs : List Block} {body : List Char}
    (hshift : ∀ line, 1 + lineEnds (Piece.spelling ps) ≤ line → K.Lines line (line + lineEnds body))
    (hps : EndsInContent ps) (hbody : .delimiter .commentClose ∉ pieces body) (h : Gives registry name (ps ++ qs) bs) :
    ∃ bs', Gives registry name (ps ++ (commentPieces body ++ qs)) bs' ∧ K.Rows bs bs' := by
  have hx : ∀ line, ∃ cs cs', Content registry name (number line []) cs ∧
      Content registry name (number line (commentPieces body)) cs' ∧ K.Rows cs cs' :=
    fun line => ⟨[], [], .nil, content_comment hbody line, K.nil⟩
  have hlines : ∀ line, 1 + lineEnds (Piece.spelling ps) ≤ line → K.Lines (line + lineEnds (Piece.spelling []))
      (line + lineEnds (Piece.spelling (commentPieces body))) := by
    rw [lineEnds_commentPieces]
    exact hshift
  exact (Gives.replace hK hn hl hlines hps hx h).2

/-- A comment that its end does not close is not closed at all. -/
theorem not_gives_comment {body : List Char} (hbrace : EndsInBrace (pieces body))
    (hbody : .delimiter .commentClose ∉ pieces body) (bs : List Block) :
    ¬ Gives registry name (pieces ('\x7b' :: '#' :: (body ++ ['#', '\x7d']))) bs := by
  rintro ⟨r, hr, hf⟩
  obtain ⟨ps, hps, hmem⟩ := pieces_commentOpen hbrace ['\x7d']
  rw [pieces_of_delimiter rfl, hps, number, List.foldlM_cons, Reader.step_content rfl] at hr
  -- the reader stays in the comment, as no piece closes it
  have hopen : ∀ t ∈ number (1 + lineEnds Delimiter.commentOpen.chars)
      (ps ++ .delimiter .commentOpen :: pieces ['\x7d']), t.kind ≠ .delimiter .commentClose := by
    intro t ht hk
    rcases List.mem_append.1 (mem_of_mem_number ht hk) with h | h
    · exact hbody (hmem _ h)
    · simp [pieces] at h
  obtain ⟨line, hline⟩ := @foldlM_comment registry name _ hopen
    (Reader.moved {} ⟨.delimiter .commentOpen, String.ofList Delimiter.commentOpen.chars, 1⟩ [.comment, .content]) rfl
  have hrun := hline.symm.trans hr
  cases hrun
  obtain ⟨hd, -, -⟩ := Reader.finish_eq_ok.1 hf
  cases hd

end TemplateEngine.Template

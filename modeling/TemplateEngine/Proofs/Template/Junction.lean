/-
Texts that are put together. Their pieces are those of the one and those of the other, where two texts that
meet become one, unless the last character of the one and the first of the other make a delimiter.
-/
import TemplateEngine.Proofs.Template.Tokens

namespace TemplateEngine.Template

/-! ## Rows of pieces -/

/-- Two rows of pieces, one after the other; a text at the end of the one and a text at the start of the
other become one text. -/
def glue : List Piece → List Piece → List Piece
  | [.text cs], .text ds :: qs => .text (cs ++ ds) :: qs
  | [], qs => qs
  | p :: ps, qs => p :: glue ps qs

/-- The rows are put together as they are, or in the middle there are two texts that become one. -/
theorem glue_eq (ps qs : List Piece) : glue ps qs = ps ++ qs ∨ ∃ front cs ds rest, ps = front ++ [.text cs] ∧
    qs = .text ds :: rest ∧ glue ps qs = front ++ .text (cs ++ ds) :: rest := by
  fun_induction glue ps qs with
  | case1 cs ds qs => exact .inr ⟨[], cs, ds, qs, rfl, rfl, rfl⟩
  | case2 qs => exact .inl rfl
  | case3 p ps qs hno ih =>
    rcases ih with h | ⟨front, cs, ds, rest, rfl, rfl, h⟩
    · exact .inl (by rw [h, List.cons_append])
    · exact .inr ⟨p :: front, cs, ds, rest, rfl, rfl, by rw [h, List.cons_append]⟩

theorem glue_delimiter (ps : List Piece) (d : Delimiter) (qs : List Piece) :
    glue ps (.delimiter d :: qs) = ps ++ .delimiter d :: qs := by
  rcases glue_eq ps (.delimiter d :: qs) with h | ⟨front, cs, ds, rest, -, hq, -⟩
  · exact h
  · cases hq

theorem glue_delimiter_cons (d : Delimiter) (ps qs : List Piece) :
    glue (.delimiter d :: ps) qs = .delimiter d :: glue ps qs := by
  cases ps <;> rfl

/-- A character in front of the first row is one in front of both. -/
theorem consChar_glue (c : Char) (ps qs : List Piece) : consChar c (glue ps qs) = glue (consChar c ps) qs := by
  cases ps with
  | nil =>
    cases qs with
    | nil => rfl
    | cons q qs => cases q <;> rfl
  | cons p ps =>
    cases p with
    | delimiter d => rw [glue_delimiter_cons]; rfl
    | text cs =>
      cases ps with
      | cons p ps => rfl
      | nil =>
        cases qs with
        | nil => rfl
        | cons q qs => cases q <;> rfl

theorem consChar_append (c : Char) (ps : List Piece) (d : Delimiter) (qs : List Piece) :
    consChar c (ps ++ .delimiter d :: qs) = consChar c ps ++ .delimiter d :: qs := by
  rw [← glue_delimiter, consChar_glue, glue_delimiter]

/-! ## Pieces of two texts -/

theorem pieces_of_delimiter {c e : Char} {k : Delimiter} (h : Delimiter.ofChars? c e = some k) (cs : List Char) :
    pieces (c :: e :: cs) = .delimiter k :: pieces cs := by
  rw [pieces, h]

theorem pieces_of_none {c e : Char} (h : Delimiter.ofChars? c e = none) (cs : List Char) :
    pieces (c :: e :: cs) = consChar c (pieces (e :: cs)) := by
  rw [pieces, h]

/-- A delimiter lies across two texts: it consists of the last character of the one and the first one of the
other. -/
structure Across (cs ds : List Char) (ps : List Piece) (c e : Char) (d : Delimiter) (rest : List Char) : Prop where
  left : cs = Piece.spelling ps ++ [c]
  right : ds = e :: rest
  delimiter : Delimiter.ofChars? c e = some d
  pieces_left : pieces cs = glue ps [.text [c]]
  pieces : pieces (cs ++ ds) = ps ++ .delimiter d :: Template.pieces rest

/-- Two texts are cut apart from each other, or a delimiter lies across them. The induction follows the cutting of
the first one: only its last character has no neighbour there. -/
theorem pieces_append (cs ds : List Char) : pieces (cs ++ ds) = glue (pieces cs) (pieces ds) ∨
    ∃ ps c e d rest, Across cs ds ps c e d rest := by
  fun_induction pieces cs with
  | case1 => exact .inl rfl
  | case2 c =>
    cases ds with
    | nil => exact .inl rfl
    | cons e rest =>
      rw [List.singleton_append]
      cases hd : Delimiter.ofChars? c e with
      | some d =>
        have hp := pieces_of_delimiter hd rest
        exact .inr ⟨[], c, e, d, rest, rfl, rfl, hd, rfl, hp⟩
      | none => exact .inl ((pieces_of_none hd rest).trans (consChar_glue c [] _))
  | case3 c e cs k hk ih =>
    -- both characters of the delimiter belong to the first text
    rw [List.cons_append, List.cons_append, pieces_of_delimiter hk]
    rcases ih with h | ⟨ps, c', e', d, rest, h⟩
    · exact .inl (by rw [h, glue_delimiter_cons])
    · refine .inr ⟨.delimiter k :: ps, c', e', d, rest, ?_, h.right, h.delimiter, ?_, ?_⟩
      · rw [h.left, Piece.spelling, Piece.spelling, List.flatMap_cons, Piece.chars, Delimiter.ofChars?_eq_some hk]
        rfl
      · rw [pieces_of_delimiter hk, glue_delimiter_cons, h.pieces_left]
      · rw [List.cons_append, List.cons_append, pieces_of_delimiter hk, h.pieces, List.cons_append]
  | case4 c e cs hk ih =>
    rw [List.cons_append, List.cons_append, pieces_of_none hk, ← List.cons_append]
    rcases ih with h | ⟨ps, c', e', d, rest, h⟩
    · exact .inl (by rw [h, consChar_glue])
    · refine .inr ⟨consChar c ps, c', e', d, rest, ?_, h.right, h.delimiter, ?_, ?_⟩
      · rw [spelling_consChar, List.cons_append, h.left]
      · rw [pieces_of_none hk, ← consChar_glue, h.pieces_left]
      · rw [List.cons_append, List.cons_append, pieces_of_none hk, ← consChar_append, ← List.cons_append, h.pieces]

/-- Texts whose ends make no delimiter are cut apart from each other. -/
theorem pieces_of_ends {cs ds : List Char}
    (h : ∀ c ∈ cs.getLast?, ∀ d ∈ ds.head?, Delimiter.ofChars? c d = none) :
    pieces (cs ++ ds) = glue (pieces cs) (pieces ds) := by
  rcases pieces_append cs ds with hg | ⟨ps, c, e, d, rest, ha⟩
  · exact hg
  · have hnone := h c (by rw [ha.left]; simp) e (by rw [ha.right]; simp)
    rw [ha.delimiter] at hnone
    cases hnone

/-! ## Where delimiters start -/

/-- The positions at which delimiters start in a row of pieces that starts at a position. -/
def starts (position : Nat) : List Piece → List Nat
  | [] => []
  | .text cs :: ps => starts (position + cs.length) ps
  | .delimiter _ :: ps => position :: starts (position + 2) ps

/-- No delimiter of two texts that are put together lies across them. -/
def Parted (cs ds : List Char) : Prop :=
  ∀ n ∈ starts 0 (pieces (cs ++ ds)), n + 1 ≠ cs.length

instance (cs ds : List Char) : Decidable (Parted cs ds) :=
  inferInstanceAs (Decidable (∀ n ∈ starts 0 (pieces (cs ++ ds)), n + 1 ≠ cs.length))

theorem length_chars (d : Delimiter) : d.chars.length = 2 := by
  cases d <;> rfl

theorem starts_append (position : Nat) (ps qs : List Piece) :
    starts position (ps ++ qs) = starts position ps ++ starts (position + (Piece.spelling ps).length) qs := by
  induction ps generalizing position with
  | nil => rfl
  | cons p ps ih =>
    cases p with
    | text cs =>
      rw [List.cons_append, starts, starts, ih, Piece.spelling, Piece.spelling, List.flatMap_cons, Piece.chars,
        List.length_append, Nat.add_assoc]
    | delimiter d =>
      rw [List.cons_append, starts, starts, ih, Piece.spelling, Piece.spelling, List.flatMap_cons, Piece.chars,
        List.length_append, length_chars, Nat.add_assoc, List.cons_append]

/-- Texts that become one leave the delimiters where they are. -/
theorem starts_glue (position : Nat) (ps qs : List Piece) :
    starts position (glue ps qs) = starts position ps ++ starts (position + (Piece.spelling ps).length) qs := by
  rcases glue_eq ps qs with h | ⟨front, cs, ds, rest, rfl, rfl, h⟩
  · rw [h, starts_append]
  · rw [h, starts_append, starts_append]
    simp [starts, Piece.spelling, Piece.chars, Nat.add_assoc]

theorem starts_shift (position k : Nat) (ps : List Piece) :
    starts (k + position) ps = (starts position ps).map (k + ·) := by
  induction ps generalizing position with
  | nil => rfl
  | cons p ps ih =>
    cases p with
    | text cs => rw [starts, starts, Nat.add_assoc, ih]
    | delimiter d => rw [starts, starts, Nat.add_assoc, ih, List.map_cons]

theorem Parted.pieces {cs ds : List Char} (h : Parted cs ds) :
    Template.pieces (cs ++ ds) = glue (Template.pieces cs) (Template.pieces ds) := by
  rcases pieces_append cs ds with hg | ⟨ps, c, e, d, rest, ha⟩
  · exact hg
  · -- the delimiter across them would start with the last character of the first text
    refine absurd ?_ (h (Piece.spelling ps).length ?_)
    · rw [ha.left, List.length_append, List.length_singleton]
    · rw [ha.pieces, starts_append, Nat.zero_add]
      exact List.mem_append_right _ (List.mem_cons_self ..)

/-- What is put in front changes nothing, if it is parted from the rest. -/
theorem Parted.of_append {cs ds es : List Char} (h : Parted cs (ds ++ es)) (h' : Parted (cs ++ ds) es) :
    Parted ds es := by
  intro n hn hlength
  refine h' (cs.length + n) ?_ ?_
  · rw [List.append_assoc, h.pieces, starts_glue, spelling_pieces]
    refine List.mem_append_right _ ?_
    rw [Nat.zero_add, ← Nat.add_zero cs.length, starts_shift]
    exact List.mem_map_of_mem hn
  · rw [List.length_append, Nat.add_assoc, hlength]

/-- Three texts are cut apart from each other, if no delimiter lies across two of them. -/
theorem pieces_parted {cs ds es : List Char} (h : Parted cs (ds ++ es)) (h' : Parted (cs ++ ds) es) :
    pieces (cs ++ (ds ++ es)) = glue (pieces cs) (glue (pieces ds) (pieces es)) := by
  rw [h.pieces, (h.of_append h').pieces]

/-! ## Texts without delimiters -/

theorem ofChars?_eq_none {c e : Char} (hc : c ≠ '\x7b') (he : e ≠ '\x7d') : Delimiter.ofChars? c e = none := by
  simp [Delimiter.ofChars?, hc, he]

/-- A text without braces goes up to the end of the tag. -/
theorem pieces_tagClose {cs : List Char} (hne : cs ≠ []) (hcs : ∀ c ∈ cs, c ≠ '\x7b' ∧ c ≠ '\x7d')
    (rest : List Char) :
    pieces (cs ++ '%' :: '\x7d' :: rest) = .text cs :: .delimiter .tagClose :: pieces rest := by
  induction cs with
  | nil => exact absurd rfl hne
  | cons c cs ih =>
    have hc := (hcs c (List.mem_cons_self ..)).1
    cases cs with
    | nil =>
      rw [List.singleton_append, pieces_of_none (ofChars?_eq_none hc (by decide)), pieces_of_delimiter rfl]
      rfl
    | cons e cs =>
      rw [List.cons_append, List.cons_append, pieces_of_none (ofChars?_eq_none hc (hcs e (by simp)).2),
        ← List.cons_append, ih nofun fun d hd => hcs d (List.mem_cons_of_mem _ hd)]
      rfl

end TemplateEngine.Template

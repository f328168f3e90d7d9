/-
The tokens of a text as its one segmentation. A text is cut where a delimiter occurs first from the end of the
delimiter before it on, and what lies between is text; no other row of tokens does this, so the cutting is told by
where delimiters occur and not by how they are looked for.
-/
import TemplateEngine.Proofs.Template.Tokens

namespace TemplateEngine.Template

/-! ## Where delimiters occur -/

/-- A delimiter occurs at a position of a text, be it cut there or not. -/
def DelimiterAt (cs : List Char) (n : Nat) : Prop :=
  ∃ d : Delimiter, d.chars <+: cs.drop n

theorem Delimiter.ofChars?_chars (d : Delimiter) : ∃ a b, d.chars = [a, b] ∧ ofChars? a b = some d := by
  cases d <;> exact ⟨_, _, rfl, rfl⟩

theorem delimiterAt_zero {a b : Char} {cs : List Char} :
    DelimiterAt (a :: b :: cs) 0 ↔ (Delimiter.ofChars? a b).isSome = true := by
  constructor
  · rintro ⟨d, hd⟩
    obtain ⟨a', b', hchars, hof⟩ := d.ofChars?_chars
    rw [hchars, List.drop_zero, List.cons_prefix_cons, List.cons_prefix_cons] at hd
    obtain ⟨rfl, rfl, -⟩ := hd
    rw [hof, Option.isSome_some]
  · intro h
    obtain ⟨d, hd⟩ := Option.isSome_iff_exists.1 h
    exact ⟨d, [] ++ cs, by rw [Delimiter.ofChars?_eq_some hd]; rfl⟩

theorem delimiterAt_append (cs ds : List Char) (n : Nat) :
    DelimiterAt (cs ++ ds) (cs.length + n) ↔ DelimiterAt ds n := by
  unfold DelimiterAt
  rw [List.drop_append, List.drop_eq_nil_of_le (Nat.le_add_right _ _), Nat.add_sub_cancel_left, List.nil_append]

theorem delimiterAt_succ {c : Char} {cs : List Char} {n : Nat} : DelimiterAt (c :: cs) (n + 1) ↔ DelimiterAt cs n :=
  Iff.rfl

theorem not_delimiterAt_singleton (c : Char) : ¬ DelimiterAt [c] 0 := by
  rintro ⟨d, hd⟩
  obtain ⟨a, b, hchars, -⟩ := d.ofChars?_chars
  rw [hchars] at hd
  exact absurd hd.length_le (Nat.not_succ_le_self 1)

/-! ## Rows of pieces without a delimiter in their texts -/

/-- No text of a row is empty, stands in front of another one, or holds the start of a delimiter, also of one that
goes on behind it. -/
inductive Leftmost : List Piece → Prop
  | nil : Leftmost []
  | delimiter {d : Delimiter} {ps : List Piece} (h : Leftmost ps) : Leftmost (.delimiter d :: ps)
  | text {cs : List Char} {ps : List Piece} (hne : cs ≠ []) (hnext : ∀ ds, .text ds ∉ ps.head?)
      (hno : ∀ n < cs.length, ¬ DelimiterAt (Piece.spelling (.text cs :: ps)) n) (h : Leftmost ps) :
      Leftmost (.text cs :: ps)

theorem spelling_text (cs : List Char) (ps : List Piece) :
    Piece.spelling (.text cs :: ps) = cs ++ Piece.spelling ps :=
  List.flatMap_cons

theorem spelling_delimiter (d : Delimiter) (ps : List Piece) :
    Piece.spelling (.delimiter d :: ps) = d.chars ++ Piece.spelling ps :=
  List.flatMap_cons

/-- A character at which no delimiter occurs goes in front of the row. -/
theorem Leftmost.consChar {c : Char} {ps : List Piece} (h : Leftmost ps)
    (hc : ¬ DelimiterAt (c :: Piece.spelling ps) 0) : Leftmost (consChar c ps) := by
  cases h with
  | nil => exact .text (List.cons_ne_nil _ _) (by simp) (by simpa [Piece.spelling, Piece.chars] using hc) .nil
  | delimiter h =>
    refine .text (List.cons_ne_nil _ _) (by simp) (fun n hn => ?_) (.delimiter h)
    rw [List.length_singleton, Nat.lt_one_iff] at hn
    rw [hn, spelling_text]
    exact hc
  | @text cs ps hne hnext hno h =>
    refine .text (List.cons_ne_nil _ _) hnext (fun n hn => ?_) h
    rw [spelling_text] at hc ⊢
    cases n with
    | zero => exact hc
    | succ n =>
      rw [List.cons_append, delimiterAt_succ, ← spelling_text]
      exact hno n (Nat.lt_of_succ_lt_succ hn)

/-- Cutting a text leaves no delimiter in what is text. -/
theorem leftmost_pieces (cs : List Char) : Leftmost (pieces cs) := by
  fun_induction pieces cs with
  | case1 => exact .nil
  | case2 c => exact Leftmost.nil.consChar (not_delimiterAt_singleton c)
  | case3 c d cs k hk ih => exact .delimiter ih
  | case4 c d cs hk ih =>
    refine ih.consChar ?_
    rw [spelling_pieces, delimiterAt_zero, hk]
    exact Bool.false_ne_true

/-- The head of a row in front of a text at whose start a delimiter occurs is this delimiter. -/
theorem Leftmost.head_delimiter {ps : List Piece} (h : Leftmost ps) {c d : Char} {cs : List Char} {k : Delimiter}
    (hk : Delimiter.ofChars? c d = some k) (hps : Piece.spelling ps = c :: d :: cs) :
    ∃ qs, ps = .delimiter k :: qs ∧ Leftmost qs ∧ Piece.spelling qs = cs := by
  cases h with
  | nil => cases hps
  | @delimiter k' qs h =>
    obtain ⟨a, b, hchars, hof⟩ := k'.ofChars?_chars
    rw [spelling_delimiter, hchars] at hps
    cases hps
    cases hk.symm.trans hof
    exact ⟨qs, rfl, h, rfl⟩
  | @text ds qs hne hnext hno h =>
    refine absurd ?_ (hno 0 (List.length_pos_iff.2 hne))
    rw [hps, delimiterAt_zero, hk]
    rfl

/-- A row in front of a text at whose start no delimiter occurs is the row for the rest, with the character in front. -/
theorem Leftmost.head_text {ps : List Piece} (h : Leftmost ps) {c : Char} {cs : List Char}
    (hno : ¬ DelimiterAt (c :: cs) 0) (hps : Piece.spelling ps = c :: cs) :
    ∃ qs, ps = TemplateEngine.Template.consChar c qs ∧ Leftmost qs ∧ Piece.spelling qs = cs := by
  cases h with
  | nil => cases hps
  | @delimiter d qs h =>
    rw [spelling_delimiter] at hps
    exact absurd ⟨d, Piece.spelling qs, hps⟩ hno
  | @text ds qs hne hnext hout h =>
    cases ds with
    | nil => exact absurd rfl hne
    | cons c' ds =>
      rw [spelling_text, List.cons_append] at hps
      obtain ⟨rfl, hrest⟩ := List.cons.inj hps
      cases ds with
      | nil =>
        -- the next piece is no text, so that the character makes a piece of its own
        refine ⟨qs, ?_, h, hrest⟩
        cases qs with
        | nil => rfl
        | cons q qs =>
          cases q with
          | text es => exact absurd rfl (hnext es)
          | delimiter d => rfl
      | cons e ds =>
        refine ⟨.text (e :: ds) :: qs, rfl, .text nofun hnext (fun n hn => ?_) h, hrest⟩
        exact hout (n + 1) (Nat.succ_lt_succ hn)

/-- A row that spells nothing has no pieces. -/
theorem Leftmost.eq_nil {ps : List Piece} (h : Leftmost ps) (hps : Piece.spelling ps = []) : ps = [] := by
  cases h with
  | nil => rfl
  | @delimiter d qs h =>
    obtain ⟨a, b, hchars, -⟩ := d.ofChars?_chars
    rw [spelling_delimiter, hchars] at hps
    cases hps
  | text hne hnext hno h =>
    rw [spelling_text] at hps
    exact absurd (List.append_eq_nil_iff.1 hps).1 hne

/-- There is no other such row. The induction follows the cutting of the text. -/
theorem Leftmost.eq_pieces {ps : List Piece} {cs : List Char} (h : Leftmost ps) (hps : Piece.spelling ps = cs) :
    ps = pieces cs := by
  fun_induction pieces cs generalizing ps with
  | case1 => exact h.eq_nil hps
  | case2 c =>
    obtain ⟨qs, rfl, hqs, hspell⟩ := h.head_text (not_delimiterAt_singleton c) hps
    rw [hqs.eq_nil hspell]
    rfl
  | case3 c d cs k hk ih =>
    obtain ⟨qs, rfl, hqs, hspell⟩ := h.head_delimiter hk hps
    rw [ih hqs hspell]
  | case4 c d cs hk ih =>
    have hno : ¬ DelimiterAt (c :: d :: cs) 0 := by
      rw [delimiterAt_zero, hk]
      exact Bool.false_ne_true
    obtain ⟨qs, rfl, hqs, hspell⟩ := h.head_text hno hps
    rw [ih hqs hspell]

theorem Leftmost.of_append {ps qs : List Piece} (h : Leftmost (ps ++ qs)) : Leftmost qs := by
  induction ps with
  | nil => exact h
  | cons p ps ih =>
    rw [List.cons_append] at h
    cases h with
    | delimiter h => exact ih h
    | text _ _ _ h => exact ih h

/-! ## Segmentations -/

/-- A row of tokens cuts a text at the delimiters that come first. Positions are told by what the tokens before
spell, and lines by the line ends in it. -/
structure Segmentation (text : String) (ts : List Token) : Prop where
  /-- The values of the tokens concatenate to the text. -/
  spelling : Template.spelling ts = text.toList
  /-- No text token is empty. -/
  nonempty : ∀ t ∈ ts, t.kind = .text → t.value ≠ ""
  /-- No text token follows another one. -/
  apart : (ts.map (·.kind)).IsChain TokenKind.Apart
  /-- A delimiter token is of the type of its two characters. -/
  type : ∀ t ∈ ts, ∀ d, t.kind = .delimiter d → t.value.toList = d.chars
  /-- A delimiter token starts where a delimiter occurs first from the end of the one before it on. -/
  first : ∀ us vs t after, ts = us ++ (vs ++ t :: after) → (∀ v ∈ vs, v.kind = .text) → t.kind ≠ .text →
    DelimiterAt text.toList (Template.spelling (us ++ vs)).length ∧
      ∀ n, (Template.spelling us).length ≤ n → n < (Template.spelling (us ++ vs)).length →
        ¬ DelimiterAt text.toList n
  /-- No delimiter of the text starts inside of a text token, also where it ends behind the token. -/
  outside : ∀ before t after, ts = before ++ t :: after → t.kind = .text →
    ∀ n < t.value.toList.length, ¬ DelimiterAt text.toList ((Template.spelling before).length + n)
  /-- A token starts on the line that the line ends before it give, counted from one. -/
  line : ∀ before t after, ts = before ++ t :: after → t.line = 1 + lineEnds (Template.spelling before)

/-- The piece that a token is. -/
def Token.piece (t : Token) : Piece :=
  match t.kind with
  | .text => .text t.value.toList
  | .delimiter d => .delimiter d

theorem Token.kind_piece (t : Token) : t.piece.kind = t.kind := by
  unfold piece
  split <;> rename_i h <;> exact h.symm

theorem Token.piece_of_text {t : Token} (h : t.kind = .text) : t.piece = .text t.value.toList := by
  rw [piece, h]

theorem Token.chars_piece {t : Token} (h : ∀ d, t.kind = .delimiter d → t.value.toList = d.chars) :
    t.piece.chars = t.value.toList := by
  unfold piece
  split
  · rfl
  · rename_i d hd
    exact (h d hd).symm

theorem spelling_map_piece {ts : List Token} (h : ∀ t ∈ ts, ∀ d, t.kind = .delimiter d → t.value.toList = d.chars) :
    Piece.spelling (ts.map Token.piece) = spelling ts := by
  rw [Piece.spelling, List.flatMap_map]
  exact List.flatMap_congr fun t ht => Token.chars_piece (h t ht)

theorem map_piece_number (line : Nat) (ps : List Piece) : (number line ps).map Token.piece = ps := by
  induction ps generalizing line with
  | nil => rfl
  | cons p ps ih =>
    rw [number, List.map_cons, ih]
    congr 1
    cases p with
    | text cs => exact congrArg Piece.text String.toList_ofList
    | delimiter d => rfl

/-- Tokens on the lines that the line ends before them give are those of their pieces. -/
theorem number_map_piece {ts : List Token} (htype : ∀ t ∈ ts, ∀ d, t.kind = .delimiter d → t.value.toList = d.chars)
    {line : Nat} (h : Numbered line ts) : number line (ts.map Token.piece) = ts := by
  induction ts generalizing line with
  | nil => rfl
  | cons t ts ih =>
    obtain ⟨hline, h⟩ := h
    obtain ⟨ht, hts⟩ := List.forall_mem_cons.1 htype
    rw [List.map_cons, number, t.kind_piece, Token.chars_piece ht, String.ofList_toList, ih hts h, ← hline]

theorem numbered_iff {line : Nat} {ts : List Token} : Numbered line ts ↔
    ∀ before t after, ts = before ++ t :: after → t.line = line + lineEnds (spelling before) := by
  constructor
  · rintro h before t after rfl
    exact (numbered_append.1 h).2.1
  · intro h
    induction ts generalizing line with
    | nil => trivial
    | cons t ts ih =>
      refine ⟨h [] t ts rfl, ih fun before u after hts => ?_⟩
      rw [h (t :: before) u after (by rw [hts, List.cons_append]), spelling_cons, lineEnds_append, Nat.add_assoc]

/-- The token in which a position of a text lies. -/
theorem exists_token_at (ts : List Token) {n : Nat} (h : n < (spelling ts).length) :
    ∃ before t after k, ts = before ++ t :: after ∧ k < t.value.toList.length ∧ n = (spelling before).length + k := by
  induction ts generalizing n with
  | nil => cases h
  | cons t ts ih =>
    by_cases hn : n < t.value.toList.length
    · exact ⟨[], t, ts, n, rfl, hn, (Nat.zero_add n).symm⟩
    · rw [spelling_cons, List.length_append] at h
      have hrest : n - t.value.toList.length < (spelling ts).length := by omega
      obtain ⟨before, u, after, k, rfl, hk, hpos⟩ := ih hrest
      refine ⟨t :: before, u, after, k, rfl, hk, ?_⟩
      rw [spelling_cons, List.length_append]
      omega

/-- The text pieces of a cut text are not empty and hold no start of a delimiter of the text. -/
theorem Leftmost.outside {before after : List Piece} {cs : List Char}
    (h : Leftmost (before ++ .text cs :: after)) :
    cs ≠ [] ∧ ∀ n < cs.length, ¬ DelimiterAt (Piece.spelling (before ++ .text cs :: after))
      ((Piece.spelling before).length + n) := by
  cases h.of_append with
  | text hne hnext hno h =>
    refine ⟨hne, fun n hn => ?_⟩
    rw [Piece.spelling, List.flatMap_append, ← Piece.spelling, ← Piece.spelling, delimiterAt_append]
    exact hno n hn

theorem not_delimiterAt_of_tokens {text : String} {before after : List Token} {t : Token}
    (hts : tokens text = before ++ t :: after) (ht : t.kind = .text) :
    t.value.toList ≠ [] ∧ ∀ n < t.value.toList.length, ¬ DelimiterAt text.toList ((spelling before).length + n) := by
  have hpieces : pieces text.toList = before.map Token.piece ++ .text t.value.toList :: after.map Token.piece := by
    rw [← map_piece_number 1 (pieces text.toList), ← tokens, hts, List.map_append, List.map_cons,
      Token.piece_of_text ht]
  have hbefore : ∀ u ∈ before, ∀ d, u.kind = .delimiter d → u.value.toList = d.chars :=
    fun u hu d => value_of_mem_tokens (hts ▸ List.mem_append_left _ hu)
  have hleft := leftmost_pieces text.toList
  rw [hpieces] at hleft
  have hout := hleft.outside
  rwa [← hpieces, spelling_pieces, spelling_map_piece hbefore] at hout

/-- The tokens of a text are a segmentation of it. -/
theorem segmentation_tokens (text : String) : Segmentation text (tokens text) := by
  refine ⟨spelling_tokens text, ?_, tokens_apart text, fun t ht d => value_of_mem_tokens ht, ?_,
    fun before t after hts ht => (not_delimiterAt_of_tokens hts ht).2, numbered_iff.1 (numbered_tokens text)⟩
  · intro t ht hk hempty
    obtain ⟨before, after, hts⟩ := List.append_of_mem ht
    exact (not_delimiterAt_of_tokens hts hk).1 (by rw [hempty]; rfl)
  · intro us vs t after hts hvs ht
    constructor
    · cases hk : t.kind with
      | text => exact absurd hk ht
      | delimiter d =>
        have hmem : t ∈ tokens text := by
          rw [hts]
          simp
        have hvalue := value_of_mem_tokens hmem hk
        refine ⟨d, spelling after, ?_⟩
        rw [← spelling_tokens, hts, ← List.append_assoc, spelling_append (us ++ vs), List.drop_left, spelling_cons,
          hvalue]
    · intro n hle hlt
      -- the position lies in one of the text tokens between the two delimiters
      rw [spelling_append, List.length_append] at hlt
      have hbetween : n - (spelling us).length < (spelling vs).length := by omega
      obtain ⟨before, v, rest, k, rfl, hk, hn⟩ := exists_token_at vs hbetween
      have hpos : n = (spelling (us ++ before)).length + k := by
        rw [spelling_append, List.length_append]
        omega
      have hsplit : tokens text = us ++ before ++ v :: (rest ++ t :: after) := by
        rw [hts]
        simp
      rw [hpos]
      exact (not_delimiterAt_of_tokens hsplit (hvs v (by simp))).2 k hk

/-- The pieces of a segmentation are cut at the first delimiters, from any token on. -/
theorem Segmentation.leftmost {text : String} {ts before rest : List Token} (h : Segmentation text ts)
    (hts : ts = before ++ rest) : Leftmost (rest.map Token.piece) := by
  induction rest generalizing before with
  | nil => exact .nil
  | cons t rest ih =>
    have hafter : ts = (before ++ [t]) ++ rest := by
      rw [hts, List.append_assoc]
      rfl
    have hrest := ih hafter
    have htype : ∀ u ∈ t :: rest, ∀ d, u.kind = .delimiter d → u.value.toList = d.chars :=
      fun u hu => h.type u (hts ▸ List.mem_append_right _ hu)
    rw [List.map_cons]
    cases hk : t.kind with
    | delimiter d =>
      rw [Token.piece, hk]
      exact .delimiter hrest
    | text =>
      have hpiece := Token.piece_of_text hk
      have hne := h.nonempty t (by rw [hts]; simp) hk
      have hapart := h.apart
      rw [hts, List.map_append, List.isChain_append] at hapart
      rw [hpiece]
      refine .text (mt String.toList_eq_nil_iff.1 hne) ?_ ?_ hrest
      · intro ds hds
        cases rest with
        | nil => cases hds
        | cons u rest =>
          have hnext : u.kind ≠ .text := (List.isChain_cons_cons.1 hapart.2.1).1 hk
          rw [← u.kind_piece, Option.some.inj hds] at hnext
          exact hnext rfl
      · intro n hn hat
        refine h.outside before t rest hts hk n hn ?_
        rw [← h.spelling, hts, spelling_append, delimiterAt_append, ← spelling_map_piece htype, List.map_cons, hpiece]
        exact hat

/-- There is no other segmentation than the tokens of the text. -/
theorem Segmentation.eq_tokens {text : String} {ts : List Token} (h : Segmentation text ts) : ts = tokens text := by
  have hpieces : ts.map Token.piece = pieces text.toList :=
    (h.leftmost (List.nil_append ts).symm).eq_pieces ((spelling_map_piece h.type).trans h.spelling)
  rw [tokens, ← hpieces, number_map_piece h.type (numbered_iff.2 h.line)]

/-- A fresh stream gives the tokens of its text, which are its one segmentation, and is then on the last line of the
text. -/
theorem take_segmentation (text name : String) :
    ∃ ts, (TokenStream.take ⟨text, name, 1, false⟩).1 = .ok ts ∧ Segmentation text ts ∧
      (∀ us, Segmentation text us → us = ts) ∧
      (TokenStream.take ⟨text, name, 1, false⟩).2.line = 1 + lineEnds text.toList := by
  refine ⟨tokens text, ?taken, segmentation_tokens text, ?unique, ?line⟩
  case taken => rfl
  case unique => exact fun us h => h.eq_tokens
  case line => rfl

/-- Of two delimiters that overlap the first one is cut out. -/
example : (tokens "\x7b\x7b%\x7d").map Token.value = ["\x7b\x7b", "%\x7d"] := by decide

end TemplateEngine.Template

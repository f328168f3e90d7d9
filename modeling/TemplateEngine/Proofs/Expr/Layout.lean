/-
The layout of an expression source. The tokens are cut from it one after the other, each with white space or nothing in
front of it, so that no other character is lost. Their lexemes alone, with a blank between them, have the same tokens
again; and a source has no tokens exactly if no lexeme starts where the last one ended.
-/
import TemplateEngine.Proofs.Expr.Patterns

namespace TemplateEngine

open Text

/-- A token and its lexeme, the text that it was cut from. -/
structure Cutting where
  token : ExprToken
  lexeme : List Char

/-- A text that starts at a position: white space and lexemes, each the longest one where it stands, and what is left of
the text behind them. -/
inductive Laid : Nat → List Char → List Cutting → List Char → Prop
  | nil {start : Nat} {gap left : List Char} (hgap : ∀ c ∈ gap, isBlank c = true) : Laid start (gap ++ left) [] left
  | cons {start : Nat} {k : ExprTokenKind} {gap lexeme rest left : List Char} {row : List Cutting}
      (hgap : ∀ c ∈ gap, isBlank c = true) (hlexeme : (Lexeme.token k).Longest lexeme rest)
      (h : Laid (start + gap.length + lexeme.length) rest row left) :
      Laid start (gap ++ (lexeme ++ rest)) (⟨⟨k, start + gap.length⟩, lexeme⟩ :: row) left

/-- The text of a token: that of the value, or quotes with a text between them that the value is decoded from. -/
def ExprTokenKind.WrittenAs : ExprTokenKind → List Char → Prop
  | str v, lexeme => ∃ q body, (q = '"' ∨ q = '\'') ∧ QuotedText q body ∧ lexeme = q :: (body ++ [q]) ∧
      v = String.ofList (unescape body)
  | k, lexeme => lexeme = k.text.toList

variable {start stop : Nat} {cs gap left : List Char} {row : List Cutting}

/-! ## Layouts and tokens -/

namespace Laid

theorem blank (hgap : ∀ c ∈ gap, isBlank c = true) (h : Laid (start + gap.length) cs row left) :
    Laid start (gap ++ cs) row left := by
  cases h with
  | @nil _ gap' _ hgap' =>
    rw [← List.append_assoc]
    exact .nil (List.forall_mem_append.2 ⟨hgap, hgap'⟩)
  | @cons _ k gap' lexeme rest _ row hgap' hlexeme h =>
    rw [Nat.add_assoc start, ← List.length_append] at h ⊢
    rw [← List.append_assoc]
    exact .cons (List.forall_mem_append.2 ⟨hgap, hgap'⟩) hlexeme h

/-- The tokens of a text are those of its lexemes and those of what is left. -/
theorem tokenizeFrom_eq (h : Laid start cs row left) (hstop : start + cs.length = stop + left.length) :
    tokenizeFrom start cs = (row.map (·.token) ++ ·) <$> tokenizeFrom stop left := by
  induction h with
  | @nil start gap left hgap =>
    obtain rfl : start + gap.length = stop := by
      rw [List.length_append] at hstop
      omega
    rw [tokenizeFrom_blanks hgap]
    cases tokenizeFrom (start + gap.length) left <;> rfl
  | @cons start k gap lexeme rest left row hgap hlexeme h ih =>
    obtain ⟨c, lexeme, rfl⟩ := List.exists_cons_of_ne_nil hlexeme.describes.ne_nil
    have hscan := scan?_eq_some_of_longest hlexeme
    have hrest := ih (by simp only [List.length_append] at hstop; omega)
    rw [List.length_cons, ← Nat.add_assoc] at hrest
    rw [tokenizeFrom_blanks hgap, List.cons_append, tokenizeFrom, hscan]
    dsimp only
    rw [List.drop_left, hrest]
    cases tokenizeFrom stop left <;> rfl

/-- What is left behind the lexemes of a text starts with none, if it is not empty. -/
theorem of_tokenizeFrom (start : Nat) (cs : List Char) : ∃ row left, Laid start cs row left ∧ NoLexeme left := by
  have hnil : ∀ c ∈ ([] : List Char), isBlank c = true := List.forall_mem_nil _
  fun_induction tokenizeFrom start cs with
  | case1 start =>
    refine ⟨[], [], .nil hnil, fun l lexeme hl hprefix => hl.ne_nil (List.prefix_nil.1 hprefix)⟩
  | case2 start c cs hscan => exact ⟨[], c :: cs, .nil hnil, scan?_eq_none_iff.1 hscan⟩
  | case3 start c cs n hscan ih =>
    obtain ⟨row, left, hlaid, hleft⟩ := ih
    have hgap : ∀ d ∈ c :: cs.take n, isBlank d = true := by
      cases describes_of_scan? hscan with
      | blank _ h => exact h
    have hlength : (c :: cs.take n).length = n + 1 := by
      rw [List.length_cons, List.length_take, Nat.min_eq_left (scan?_le hscan)]
    have hcs : c :: cs = (c :: cs.take n) ++ cs.drop n := by rw [List.cons_append, List.take_append_drop]
    refine ⟨row, left, ?_, hleft⟩
    rw [hcs]
    exact .blank hgap (by rwa [hlength, ← Nat.add_assoc])
  | case4 start c cs k n hscan ih =>
    obtain ⟨row, left, hlaid, hleft⟩ := ih
    have hlength : (c :: cs.take n).length = n + 1 := by
      rw [List.length_cons, List.length_take, Nat.min_eq_left (scan?_le hscan)]
    have hcs : c :: cs = [] ++ ((c :: cs.take n) ++ cs.drop n) := by
      rw [List.nil_append, List.cons_append, List.take_append_drop]
    refine ⟨⟨⟨k, start⟩, c :: cs.take n⟩ :: row, left, ?_, hleft⟩
    rw [hcs]
    exact .cons hnil (longest_of_scan? hscan) (by rwa [hlength, List.length_nil, Nat.add_zero, ← Nat.add_assoc])

/-! ## Positions -/

theorem start_le (h : Laid start cs row left) : ∀ cut ∈ row, start ≤ cut.token.position := by
  induction h with
  | nil hgap => exact List.forall_mem_nil _
  | cons hgap hlexeme h ih =>
    refine List.forall_mem_cons.2 ⟨Nat.le_add_right .., fun cut hcut => ?_⟩
    have hcut := ih cut hcut
    omega

theorem length_le (h : Laid start cs row left) : left.length ≤ cs.length := by
  induction h with
  | nil hgap =>
    rw [List.length_append]
    exact Nat.le_add_left ..
  | cons hgap hlexeme h ih =>
    rw [List.length_append, List.length_append]
    omega

theorem end_le (h : Laid start cs row left) :
    ∀ cut ∈ row, cut.token.position + cut.lexeme.length + left.length ≤ start + cs.length := by
  induction h with
  | nil hgap => exact List.forall_mem_nil _
  | cons hgap hlexeme h ih =>
    have hleft := h.length_le
    rw [List.length_append, List.length_append]
    refine List.forall_mem_cons.2 ⟨by dsimp only; omega, fun cut hcut => ?_⟩
    have hcut := ih cut hcut
    omega

/-- A token starts behind the lexeme of the one before it. -/
theorem pairwise (h : Laid start cs row left) :
    row.Pairwise fun a b => a.token.position + a.lexeme.length ≤ b.token.position := by
  induction h with
  | nil hgap => exact .nil
  | cons hgap hlexeme h ih => exact .cons h.start_le ih

/-- A lexeme stands where its token is. -/
theorem lexeme_at {lead : List Char} (h : Laid lead.length cs row left) :
    ∀ cut ∈ row, cut.lexeme <+: (lead ++ cs).drop cut.token.position := by
  generalize hstart : lead.length = start at h
  induction h generalizing lead with
  | nil hgap => exact List.forall_mem_nil _
  | @cons start k gap lexeme rest left row hgap hlexeme h ih =>
    subst hstart
    refine List.forall_mem_cons.2 ⟨?_, fun cut hcut => ?_⟩
    · rw [List.drop_length_add_append, List.drop_left]
      exact List.prefix_append ..
    · have hcut := @ih (lead ++ gap ++ lexeme) (by rw [List.length_append, List.length_append]) cut hcut
      rwa [List.append_assoc, List.append_assoc] at hcut

theorem describes (h : Laid start cs row left) :
    ∀ cut ∈ row, (Lexeme.token cut.token.kind).Describes cut.lexeme := by
  induction h with
  | nil hgap => exact List.forall_mem_nil _
  | cons hgap hlexeme h ih => exact List.forall_mem_cons.2 ⟨hlexeme.describes, ih⟩

end Laid

/-! ## Lexemes with a blank between them -/

/-- Lexemes with a blank between them are laid out as they are. -/
theorem exists_laid_intercalate (hrow : ∀ cut ∈ row, (Lexeme.token cut.token.kind).Describes cut.lexeme)
    (hgap : ∀ c ∈ gap, isBlank c = true) (start : Nat) :
    ∃ row', Laid start (gap ++ [' '].intercalate (row.map (·.lexeme))) row' [] ∧
      row'.map (·.token.kind) = row.map (·.token.kind) := by
  induction row generalizing gap start with
  | nil => exact ⟨[], .nil hgap, rfl⟩
  | cons cut row ih =>
    obtain ⟨hcut, hrow⟩ := List.forall_mem_cons.1 hrow
    obtain ⟨gap', hgap', htext, hspaced⟩ : ∃ gap', (∀ c ∈ gap', isBlank c = true) ∧
        [' '].intercalate ((cut :: row).map (·.lexeme)) =
          cut.lexeme ++ (gap' ++ [' '].intercalate (row.map (·.lexeme))) ∧
        Spaced (gap' ++ [' '].intercalate (row.map (·.lexeme))) := by
      cases row with
      | nil => exact ⟨[], List.forall_mem_nil _, by simp, .nil⟩
      | cons next row =>
        refine ⟨[' '], List.forall_mem_singleton.2 rfl, ?_, by rintro c ⟨⟩; rfl⟩
        rw [List.map_cons, List.map_cons, List.intercalate_cons_cons, List.append_assoc]
    obtain ⟨row', hlaid, hkinds⟩ := ih hrow hgap' (start + gap.length + cut.lexeme.length)
    refine ⟨⟨⟨cut.token.kind, start + gap.length⟩, cut.lexeme⟩ :: row', ?_, by rw [List.map_cons, hkinds]; rfl⟩
    rw [htext]
    exact .cons hgap (hcut.longest hspaced) hlaid

theorem writtenAs_of_describes {k : ExprTokenKind} {lexeme : List Char} (h : (Lexeme.token k).Describes lexeme) :
    k.WrittenAs lexeme := by
  cases h with
  | number h => exact String.toList_ofList.symm
  | quoted hq h => exact ⟨_, _, hq, h, rfl, rfl⟩
  | symbol s => exact String.toList_ofList.symm
  | @word c cs hc hcs =>
    unfold wordKind
    dsimp only
    split
    · rename_i k hk
      have hword := List.find?_some hk
      rw [beq_iff_eq] at hword
      show c :: cs = k.word.toList
      rw [hword, String.toList_ofList]
    · exact String.toList_ofList.symm

/-! ## Sources -/

section

variable {source : String}

theorem Laid.tokenize_eq_ok (h : Laid 0 source.toList row []) :
    tokenize source = .ok (row.map (·.token) ++ [⟨.done, source.length⟩]) := by
  have hstop : 0 + source.toList.length = source.length := by rw [Nat.zero_add, String.length_toList]
  rw [tokenize, h.tokenizeFrom_eq hstop, tokenizeFrom]
  rfl

theorem Laid.tokenize_eq_error {c : Char} {rest : List Char} {position : Nat} (h : Laid 0 source.toList row (c :: rest))
    (hleft : NoLexeme (c :: rest)) (hposition : position + (c :: rest).length = source.length) :
    tokenize source = .error ⟨c, position⟩ := by
  have hstop : 0 + source.toList.length = position + (c :: rest).length := by
    rw [hposition, Nat.zero_add, String.length_toList]
  rw [tokenize, h.tokenizeFrom_eq hstop, tokenizeFrom, scan?_eq_none_iff.2 hleft]
  rfl

/-- A source is laid out up to a place where no lexeme starts, and has tokens if that is its end. -/
theorem tokenize_cases (source : String) :
    (∃ row, Laid 0 source.toList row [] ∧ tokenize source = .ok (row.map (·.token) ++ [⟨.done, source.length⟩])) ∨
    ∃ row c rest position, Laid 0 source.toList row (c :: rest) ∧ NoLexeme (c :: rest) ∧
      position + (c :: rest).length = source.length ∧ tokenize source = .error ⟨c, position⟩ := by
  obtain ⟨row, left, hlaid, hleft⟩ := Laid.of_tokenizeFrom 0 source.toList
  cases left with
  | nil => exact .inl ⟨row, hlaid, hlaid.tokenize_eq_ok⟩
  | cons c rest =>
    have hle := hlaid.length_le
    rw [String.length_toList] at hle
    have hposition := Nat.sub_add_cancel hle
    exact .inr ⟨row, c, rest, _, hlaid, hleft, hposition, hlaid.tokenize_eq_error hleft hposition⟩

theorem exists_laid_of_tokenize {ts : List ExprToken} (h : tokenize source = .ok ts) :
    ∃ row, Laid 0 source.toList row [] ∧ ts = row.map (·.token) ++ [⟨.done, source.length⟩] := by
  obtain ⟨row, hlaid, hok⟩ | ⟨row, c, rest, position, -, -, -, herror⟩ := tokenize_cases source
  · exact ⟨row, hlaid, Except.ok.inj (h.symm.trans hok)⟩
  · exact absurd (h.symm.trans herror) nofun

theorem exists_laid_of_tokenize_error {c : Char} {position : Nat} (h : tokenize source = .error ⟨c, position⟩) :
    ∃ row rest, Laid 0 source.toList row (c :: rest) ∧ NoLexeme (c :: rest) ∧
      position + (c :: rest).length = source.length := by
  obtain ⟨row, -, hok⟩ | ⟨row, d, rest, position', hlaid, hleft, hposition, herror⟩ := tokenize_cases source
  · exact absurd (h.symm.trans hok) nofun
  · cases h.symm.trans herror
    exact ⟨row, rest, hlaid, hleft, hposition⟩

/-- Positions increase, as no lexeme is empty, up to the end of the source. -/
theorem Laid.pairwise_position (h : Laid 0 source.toList row []) :
    List.Pairwise (·.position < ·.position) (row.map (·.token) ++ [⟨.done, source.length⟩]) := by
  have hend := h.end_le
  rw [Nat.zero_add, String.length_toList] at hend
  have hlexeme : ∀ cut ∈ row, 0 < cut.lexeme.length := fun cut hcut =>
    List.length_pos_iff.2 (h.describes cut hcut).ne_nil
  rw [List.pairwise_append, List.pairwise_map]
  refine ⟨h.pairwise.imp_of_mem fun {a b} ha _ hab => ?_, List.pairwise_singleton .., ?_⟩
  · have ha := hlexeme a ha
    omega
  · intro t ht e he
    obtain rfl := List.mem_singleton.1 he
    obtain ⟨cut, hcut, rfl⟩ := List.mem_map.1 ht
    have hpos := hlexeme cut hcut
    have hle := hend cut hcut
    dsimp only
    omega

/-- The lexemes of a source with a blank between them have the tokens of the source at other positions. -/
theorem Laid.tokenize_intercalate (h : Laid 0 source.toList row []) :
    ∃ us, tokenize (" ".intercalate (row.map fun cut => String.ofList cut.lexeme)) = .ok us ∧
      us.map (·.kind) = row.map (·.token.kind) ++ [.done] := by
  obtain ⟨row', hlaid, hkinds⟩ := exists_laid_intercalate h.describes (List.forall_mem_nil _) 0
  have htext : (" ".intercalate (row.map fun cut => String.ofList cut.lexeme)).toList =
      [' '].intercalate (row.map (·.lexeme)) := by
    rw [String.toList_intercalate, List.map_map]
    congr 1
    exact List.map_congr_left fun cut _ => String.toList_ofList
  rw [List.nil_append, ← htext] at hlaid
  refine ⟨_, hlaid.tokenize_eq_ok, ?_⟩
  rw [List.map_append, List.map_map, ← hkinds]
  rfl

end

/-- The tokens of a source lose nothing but white space, and the spacing does not matter: a source that has tokens is
its lexemes with white space around them, each token stands further on than the one before it, at the text of its
value, and the lexemes with a blank between them have the same kinds of tokens. A source has no tokens exactly if it is
lexemes up to a place where none starts, which is the place of the error. -/
theorem tokenize_lossless (source : String) :
    (∀ ts, tokenize source = .ok ts → ∃ row : List Cutting, Laid 0 source.toList row [] ∧
      ts = row.map (·.token) ++ [⟨.done, source.length⟩] ∧
      ts.Pairwise (·.position < ·.position) ∧ (∀ t ∈ ts, t.position ≤ source.length) ∧
      (∀ cut ∈ row, cut.lexeme <+: source.toList.drop cut.token.position ∧ cut.token.kind.WrittenAs cut.lexeme) ∧
      ∃ us, tokenize (" ".intercalate (row.map fun cut => String.ofList cut.lexeme)) = .ok us ∧
        us.map (·.kind) = ts.map (·.kind)) ∧
    ∀ c position, tokenize source = .error ⟨c, position⟩ ↔ ∃ row rest, Laid 0 source.toList row (c :: rest) ∧
      NoLexeme (c :: rest) ∧ position + (c :: rest).length = source.length := by
  constructor
  · intro ts hts
    obtain ⟨row, hlaid, rfl⟩ := exists_laid_of_tokenize hts
    have hpositions := hlaid.pairwise_position
    have hlexeme := @Laid.lexeme_at _ _ _ [] hlaid
    obtain ⟨us, hus, hkinds⟩ := hlaid.tokenize_intercalate
    refine ⟨row, hlaid, rfl, hpositions, ?_, fun cut hcut => ⟨hlexeme cut hcut, ?_⟩, us, hus, ?_⟩
    · intro t ht
      rcases List.mem_append.1 ht with ht | ht
      · exact Nat.le_of_lt ((List.pairwise_append.1 hpositions).2.2 t ht _ (List.mem_singleton_self _))
      · rw [List.mem_singleton.1 ht]
    · exact writtenAs_of_describes (hlaid.describes cut hcut)
    · rw [hkinds, List.map_append, List.map_map]
      rfl
  · intro c position
    refine ⟨exists_laid_of_tokenize_error, ?_⟩
    rintro ⟨row, rest, hlaid, hleft, hposition⟩
    exact hlaid.tokenize_eq_error hleft hposition

/-- Two bars are one token, bars and a sign are two, and no token starts with one `&`. -/
theorem tokenize_lossless_symbols :
    (∃ row, Laid 0 "a||-b".toList row [] ∧
      row.map (·.token) ++ [⟨.done, 5⟩] =
        [⟨.name "a", 0⟩, ⟨.symbol .bars, 1⟩, ⟨.symbol .minus, 3⟩, ⟨.name "b", 4⟩, ⟨.done, 5⟩]) ∧
    ∃ row rest, Laid 0 "a &b".toList row ('&' :: rest) ∧ NoLexeme ('&' :: rest) := by
  constructor
  · have htokens : tokenize "a||-b" =
        .ok [⟨.name "a", 0⟩, ⟨.symbol .bars, 1⟩, ⟨.symbol .minus, 3⟩, ⟨.name "b", 4⟩, ⟨.done, 5⟩] := by
      with_unfolding_all rfl
    obtain ⟨row, hlaid, hrow, -⟩ := (tokenize_lossless "a||-b").1 _ htokens
    exact ⟨row, hlaid, hrow.symm⟩
  · have herror : tokenize "a &b" = .error ⟨'&', 2⟩ := by with_unfolding_all rfl
    obtain ⟨row, rest, hlaid, hleft, -⟩ := ((tokenize_lossless "a &b").2 '&' 2).1 herror
    exact ⟨row, rest, hlaid, hleft⟩

end TemplateEngine

/-
Laws of the tokens of a text: their values concatenate to the text, no text token follows another,
and each token knows the line that the line ends before it give.
-/
import Mathlib.Data.List.Chain
import TemplateEngine.Template.Token

namespace TemplateEngine.Template

/-! ## Pieces -/

/-- The characters of pieces, one after the other. -/
def Piece.spelling (ps : List Piece) : List Char :=
  ps.flatMap Piece.chars

theorem spelling_consChar (c : Char) (ps : List Piece) :
    Piece.spelling (consChar c ps) = c :: Piece.spelling ps := by
  unfold consChar
  split <;> rfl

/-- Cutting a text loses nothing. -/
theorem spelling_pieces (cs : List Char) : Piece.spelling (pieces cs) = cs := by
  fun_induction pieces cs with
  | case1 => rfl
  | case2 c => rfl
  | case3 c d cs k hk ih =>
    rw [Piece.spelling, List.flatMap_cons, ← Piece.spelling, ih, Piece.chars, Delimiter.ofChars?_eq_some hk]
    rfl
  | case4 c d cs hk ih => rw [spelling_consChar, ih]

/-- Of two neighbours at most one is a text. -/
def TokenKind.Apart (a b : TokenKind) : Prop := a = .text → b ≠ .text

theorem consChar_apart {c : Char} {ps : List Piece} (h : (ps.map Piece.kind).IsChain TokenKind.Apart) :
    ((consChar c ps).map Piece.kind).IsChain TokenKind.Apart := by
  unfold consChar
  split
  · exact h
  · rename_i hno
    cases ps with
    | nil => exact .singleton _
    | cons p ps =>
      cases p with
      | text cs => exact absurd rfl (hno cs ps)
      | delimiter d => exact .cons_cons (fun _ => nofun) h

/-- Two texts are never neighbours. -/
theorem pieces_apart (cs : List Char) : ((pieces cs).map Piece.kind).IsChain TokenKind.Apart := by
  fun_induction pieces cs with
  | case1 => exact .nil
  | case2 c => exact .singleton _
  | case3 c d cs k hk ih =>
    cases hp : pieces cs with
    | nil => exact .singleton _
    | cons p ps => rw [hp] at ih; exact .cons_cons (fun h => nomatch h) ih
  | case4 c d cs hk ih => exact consChar_apart ih

/-! ## Numbered tokens -/

/-- The characters of tokens, one after the other. -/
def spelling (ts : List Token) : List Char :=
  ts.flatMap (·.value.toList)

@[simp] theorem spelling_nil : spelling [] = [] := rfl

@[simp] theorem spelling_cons (t : Token) (ts : List Token) :
    spelling (t :: ts) = t.value.toList ++ spelling ts := List.flatMap_cons

@[simp] theorem spelling_append (ts us : List Token) : spelling (ts ++ us) = spelling ts ++ spelling us :=
  List.flatMap_append

@[simp] theorem lineEnds_append (cs ds : List Char) : lineEnds (cs ++ ds) = lineEnds cs + lineEnds ds :=
  List.count_append

/-- Each token stands on the line that the line ends before it give; the first one on `line`. -/
def Numbered (line : Nat) : List Token → Prop
  | [] => True
  | t :: ts => t.line = line ∧ Numbered (line + lineEnds t.value.toList) ts

theorem numbered_append {line : Nat} {ts us : List Token} :
    Numbered line (ts ++ us) ↔ Numbered line ts ∧ Numbered (line + lineEnds (spelling ts)) us := by
  induction ts generalizing line with
  | nil => simp [Numbered, lineEnds]
  | cons t ts ih => simp [Numbered, ih, and_assoc, Nat.add_assoc]

theorem number_append (line : Nat) (ps qs : List Piece) :
    number line (ps ++ qs) = number line ps ++ number (line + lineEnds (Piece.spelling ps)) qs := by
  induction ps generalizing line with
  | nil => rfl
  | cons p ps ih =>
    rw [List.cons_append, number, number, ih, List.cons_append, Piece.spelling, Piece.spelling, List.flatMap_cons,
      lineEnds_append, Nat.add_assoc]

theorem spelling_number (line : Nat) (ps : List Piece) : spelling (number line ps) = Piece.spelling ps := by
  induction ps generalizing line with
  | nil => rfl
  | cons p ps ih => rw [number, spelling_cons, ih]; simp [Piece.spelling]

theorem numbered_number (line : Nat) (ps : List Piece) : Numbered line (number line ps) := by
  induction ps generalizing line with
  | nil => trivial
  | cons p ps ih => exact ⟨rfl, by simpa using ih _⟩

theorem map_kind_number (line : Nat) (ps : List Piece) :
    (number line ps).map (·.kind) = ps.map Piece.kind := by
  induction ps generalizing line with
  | nil => rfl
  | cons p ps ih => rw [number, List.map_cons, ih, List.map_cons]

/-- A delimiter token is spelled by its delimiter. -/
theorem value_of_mem_number {line : Nat} {ps : List Piece} {t : Token} {d : Delimiter}
    (ht : t ∈ number line ps) (hd : t.kind = .delimiter d) : t.value.toList = d.chars := by
  induction ps generalizing line with
  | nil => cases ht
  | cons p ps ih =>
    rcases List.mem_cons.1 ht with rfl | ht
    · cases p with
      | text cs => cases hd
      | delimiter k => cases hd; simp [Piece.chars]
    · exact ih ht

/-! ## Tokens of a text -/

/-- The values of the tokens concatenate to the text. -/
theorem spelling_tokens (text : String) : spelling (tokens text) = text.toList := by
  rw [tokens, spelling_number, spelling_pieces]

/-- Token lines count the line ends before the token, from one on. -/
theorem numbered_tokens (text : String) : Numbered 1 (tokens text) :=
  numbered_number 1 _

/-- No text token follows another. -/
theorem tokens_apart (text : String) : ((tokens text).map (·.kind)).IsChain TokenKind.Apart := by
  rw [tokens, map_kind_number]; exact pieces_apart _

theorem value_of_mem_tokens {text : String} {t : Token} {d : Delimiter} (ht : t ∈ tokens text)
    (hd : t.kind = .delimiter d) : t.value.toList = d.chars :=
  value_of_mem_number ht hd

end TemplateEngine.Template

/-
The tokens of a text in front of another one. A symbol, a number, a word and a quoted text are one token there, if what
follows does not go on with them; and a text that is put together from such pieces has their tokens, one piece after
the other.
-/
import Mathlib.Data.Nat.Digits.Defs
import TemplateEngine.Proofs.Expr.Quotation
import TemplateEngine.Proofs.Expr.Trim
import TemplateEngine.Text.Quoted

namespace TemplateEngine

open Text

variable {cs ds rest : List Char} {P Q R : List ExprToken → Prop}

/-! ## Pieces -/

/-- In front of another text a text has tokens of a kind, and those of the other one follow them. -/
def Scans (cs rest : List Char) (P : List ExprToken → Prop) : Prop :=
  ∀ position, ∃ ts, P ts ∧
    tokenizeFrom position (cs ++ rest) = (ts ++ ·) <$> tokenizeFrom (position + cs.length) rest

/-- One token of a kind. -/
def Single (k : ExprTokenKind) (ts : List ExprToken) : Prop :=
  ∃ t : ExprToken, t.kind = k ∧ ts = [t]

/-- Tokens of two kinds, one after the other. -/
def Followed (P Q : List ExprToken → Prop) (ts : List ExprToken) : Prop :=
  ∃ us vs, P us ∧ Q vs ∧ ts = us ++ vs

theorem Scans.mono (h : Scans cs rest P) (hPQ : ∀ ts, P ts → Q ts) : Scans cs rest Q := by
  intro position
  obtain ⟨ts, hts, htokens⟩ := h position
  exact ⟨ts, hPQ ts hts, htokens⟩

theorem Scans.append (hcs : Scans cs (ds ++ rest) P) (hds : Scans ds rest Q) : Scans (cs ++ ds) rest (Followed P Q) := by
  intro position
  obtain ⟨ts, hts, htokens⟩ := hcs position
  obtain ⟨us, hus, hutokens⟩ := hds (position + cs.length)
  refine ⟨ts ++ us, ⟨ts, us, hts, hus, rfl⟩, ?_⟩
  rw [List.append_assoc, htokens, hutokens, List.length_append, ← Nat.add_assoc]
  cases tokenizeFrom (position + cs.length + ds.length) rest with
  | error e => rfl
  | ok vs => exact congrArg Except.ok (List.append_assoc ts us vs).symm

/-- The tokens of a whole source. -/
theorem Scans.tokenize {s : String} (h : Scans s.toList [] P) :
    ∃ ts p, P ts ∧ tokenize s = .ok (ts ++ [⟨.done, p⟩]) := by
  obtain ⟨ts, hts, htokens⟩ := h 0
  rw [List.append_nil, tokenizeFrom] at htokens
  exact ⟨ts, _, hts, htokens⟩

theorem Scans.blank (rest : List Char) : Scans [' '] rest (· = []) := by
  intro position
  have hblank : ∀ c ∈ [' '], isBlank c = true := List.forall_mem_singleton.2 rfl
  refine ⟨[], rfl, ?_⟩
  rw [tokenizeFrom_blanks hblank]
  cases tokenizeFrom (position + [' '].length) rest <;> rfl

/-- A text is one token, if the lexeme at its head takes it all and no more. -/
theorem Scans.of_scan? {c : Char} {k : ExprTokenKind} (h : scan? c (cs ++ rest) = some (.token k, cs.length)) :
    Scans (c :: cs) rest (Single k) := by
  intro position
  refine ⟨[⟨k, position⟩], ⟨_, rfl, rfl⟩, ?_⟩
  rw [List.cons_append, tokenizeFrom, h]
  dsimp only
  rw [List.drop_left, List.length_cons, ← Nat.add_assoc]
  cases tokenizeFrom (position + cs.length + 1) rest <;> rfl

/-! ## Symbols -/

theorem scan?_of_symbol {c : Char} {s : Symbol} (hblank : isBlank c = false) (hdigit : isDigit c = false)
    (hquote : (c == '"' || c == '\'') = false) (h : Symbol.ofHead? (c :: cs) = some s) :
    scan? c cs = some (.token (.symbol s), s.chars.length - 1) := by
  rw [scan?, hblank, hdigit, hquote, h]
  rfl

theorem Symbol.exists_chars (s : Symbol) :
    ∃ c cs, s.chars = c :: cs ∧ isBlank c = false ∧ isDigit c = false ∧ (c == '"' || c == '\'') = false := by
  cases s <;> exact ⟨_, _, rfl, by decide, by decide, by decide⟩

theorem Scans.of_ofHead? {s : Symbol} (h : Symbol.ofHead? (s.chars ++ rest) = some s) :
    Scans s.chars rest (Single (.symbol s)) := by
  obtain ⟨c, cs, hs, hblank, hdigit, hquote⟩ := s.exists_chars
  rw [hs] at h ⊢
  refine .of_scan? ?_
  exact (scan?_of_symbol hblank hdigit hquote h).trans (by rw [hs]; rfl)

/-- A blank goes on with no symbol. -/
theorem Scans.symbol_spaced (s : Symbol) (rest : List Char) : Scans s.chars (' ' :: rest) (Single (.symbol s)) :=
  .of_ofHead? (by cases s <;> rfl)

/-- The symbols that no other one starts with. -/
def Symbol.isMark : Symbol → Bool
  | colon | comma | dot | parenOpen | parenClose | bracketOpen | bracketClose | braceOpen | braceClose => true
  | _ => false

theorem Scans.mark {s : Symbol} (h : s.isMark = true) (rest : List Char) : Scans s.chars rest (Single (.symbol s)) := by
  refine .of_ofHead? ?_
  cases s <;> first | rfl | exact absurd h (by decide)

/-! ## Numbers and words -/

/-- A text that goes on with no number and no word in front of it. -/
structure Detached (rest : List Char) : Prop where
  digit : ∀ c ∈ rest.head?, isDigit c = false
  name : ∀ c ∈ rest.head?, isNameChar c = false
  fraction : fractionLength rest = 0

theorem Detached.nil : Detached [] :=
  ⟨fun _ h => (nomatch h), fun _ h => (nomatch h), rfl⟩

theorem Detached.space (rest : List Char) : Detached (' ' :: rest) :=
  ⟨by rintro c ⟨⟩; decide, by rintro c ⟨⟩; decide, rfl⟩

/-- A mark ends numbers and words in front of it, and a point does if no digit stands behind it. -/
theorem Detached.mark {s : Symbol} (h : s.isMark = true) (hdot : s = .dot → runLength isDigit rest = 0) :
    Detached (s.chars ++ rest) := by
  cases s <;> first
  | exact absurd h (by decide)
  | exact ⟨by rintro c ⟨⟩; decide, by rintro c ⟨⟩; decide, rfl⟩
  | exact ⟨by rintro c ⟨⟩; decide, by rintro c ⟨⟩; decide, hdot rfl⟩

theorem exponentLength_of_detached (h : Detached rest) : exponentLength rest = 0 := by
  cases rest with
  | nil => rfl
  | cons c rest =>
    have hc := h.name c rfl
    rw [exponentLength_cons, if_neg]
    rintro he
    simp only [Bool.or_eq_true, beq_iff_eq] at he
    rcases he with rfl | rfl <;> cases hc

theorem runLength_eq_zero {p : Char → Bool} (h : ∀ c ∈ rest.head?, p c = false) : runLength p rest = 0 := by
  rw [← List.nil_append rest, runLength_append h]
  rfl

theorem runLength_word {p : Char → Bool} (hcs : ∀ c ∈ cs, p c = true) (h : ∀ c ∈ rest.head?, p c = false) :
    runLength p (cs ++ rest) = cs.length := by
  rw [runLength_append_of_all hcs, runLength_eq_zero h, Nat.add_zero]

theorem numberLength_digits (hcs : ∀ c ∈ cs, isDigit c = true) (hne : cs ≠ []) (h : Detached rest) :
    numberLength (cs ++ rest) = cs.length := by
  have hwhole := runLength_word hcs h.digit
  have hmantissa : mantissaLength (cs ++ rest) = cs.length := by
    rw [mantissaLength, hwhole, List.drop_left, h.fraction]
    rfl
  rw [numberLength_def, hwhole, hmantissa, List.drop_left, exponentLength_of_detached h, if_neg]
  · rfl
  · simpa using hne

theorem isBlank_of_isNameChar {c : Char} (h : isNameChar c = true) : isBlank c = false := by
  have hall : ∀ n ∈ blanks, isNameChar (Char.ofNat n) = false := by decide
  by_contra hb
  have hc := hall _ (toNat_mem_blanks (by simpa using hb))
  rw [Char.ofNat_toNat, h] at hc
  cases hc

theorem not_quote_of_isNameChar {c : Char} (h : isNameChar c = true) : (c == '"' || c == '\'') = false := by
  by_contra hq
  simp only [Bool.not_eq_false, Bool.or_eq_true, beq_iff_eq] at hq
  rcases hq with rfl | rfl <;> cases h

theorem toNat_lt_of_isNameStart {c : Char} (h : isNameStart c = true) : c.toNat < 128 := by
  have hcases : (decide ('A'.val ≤ c.val ∧ c.val ≤ 'Z'.val) ||
      (decide ('a'.val ≤ c.val) && decide (c.val ≤ 'z'.val)) || c == '_') = true := h
  simp only [Bool.or_eq_true, Bool.and_eq_true, decide_eq_true_eq, beq_iff_eq] at hcases
  rcases hcases with (⟨-, hc⟩ | ⟨-, hc⟩) | rfl
  · exact lt_of_le_of_lt (UInt32.le_iff_toNat_le.1 hc) (by decide)
  · exact lt_of_le_of_lt (UInt32.le_iff_toNat_le.1 hc) (by decide)
  · decide

theorem isDigit_of_isNameStart {c : Char} (h : isNameStart c = true) : isDigit c = false := by
  have hall : ∀ n < 128, isNameStart (Char.ofNat n) = true → isDigit (Char.ofNat n) = false := by decide
  have hc := hall _ (toNat_lt_of_isNameStart h)
  rw [Char.ofNat_toNat] at hc
  exact hc h

theorem isNameChar_of_isNameStart {c : Char} (h : isNameStart c = true) : isNameChar c = true := by
  simp only [isNameStart, isNameChar, Char.isAlphanum, Bool.or_eq_true] at h ⊢
  exact h.imp_left .inl

theorem isNameChar_of_isDigit {c : Char} (h : c.isDigit = true) : isNameChar c = true := by
  simp [isNameChar, Char.isAlphanum, h]

theorem not_isNameStart_symbol (s : Symbol) : s.chars.head?.all (fun c => !isNameStart c) = true := by
  cases s <;> decide

theorem ofHead?_of_isNameStart {c : Char} (h : isNameStart c = true) (cs : List Char) :
    Symbol.ofHead? (c :: cs) = none := by
  rw [Symbol.ofHead?, List.find?_eq_none]
  intro s _ hhead
  have hs := not_isNameStart_symbol s
  obtain ⟨d, ds, hchars, -⟩ := s.exists_chars
  rw [hchars, List.isPrefixOf_iff_prefix, List.cons_prefix_cons] at hhead
  rw [hchars, hhead.1] at hs
  simp [h] at hs

theorem Scans.digits (hcs : ∀ c ∈ cs, c.isDigit = true) (hne : cs ≠ []) (h : Detached rest) :
    Scans cs rest (Single (.number (String.ofList cs))) := by
  have hlength := numberLength_digits (fun c hc => isDigit_of_isDigit (hcs c hc)) hne h
  obtain ⟨c, cs, rfl⟩ := List.exists_cons_of_ne_nil hne
  have hc := hcs c (List.mem_cons_self ..)
  rw [List.cons_append] at hlength
  refine .of_scan? ?_
  rw [scan?, isBlank_of_isNameChar (isNameChar_of_isDigit hc), isDigit_of_isDigit hc, hlength]
  simp

theorem Scans.word {c : Char} (hc : isNameStart c = true) (hcs : ∀ c ∈ cs, isNameChar c = true) (h : Detached rest) :
    Scans (c :: cs) rest (Single (wordKind (c :: cs))) := by
  have hname := isNameChar_of_isNameStart hc
  refine .of_scan? ?_
  rw [scan?, isBlank_of_isNameChar hname, isDigit_of_isNameStart hc, not_quote_of_isNameChar hname,
    ofHead?_of_isNameStart hc, hc, runLength_word hcs h.name]
  simp

/-! ## Quoted texts -/

/-- What a quoted text has between its quotes. -/
def quotedBody (q : Char) (cs : List Char) : List Char :=
  cs.flatMap fun c => (quotedChar q c).toList

theorem toList_quoted (s : String) :
    (quoted s).toList = quoteFor s.toList :: (quotedBody (quoteFor s.toList) s.toList ++ [quoteFor s.toList]) := by
  simp [quoted, quotedBody, List.flatMap_map]

theorem quoteFor_eq (cs : List Char) : quoteFor cs = '"' ∨ quoteFor cs = '\'' := by
  unfold quoteFor
  split
  · exact .inl rfl
  · exact .inr rfl

/-- A character of the printable part of ASCII. -/
def Visible (c : Char) : Prop :=
  32 ≤ c.toNat ∧ c.toNat < 127

theorem toList_quotedChar {q c : Char} (h : Visible c) :
    (quotedChar q c).toList = if c = q ∨ c = '\\' then ['\\', c] else [c] := by
  have hline {d : Char} (hd : d.toNat < 32) : (c == d) = false := by
    rw [beq_eq_false_iff_ne]
    rintro rfl
    exact absurd h.1 (Nat.not_le.2 hd)
  have hprintable : isPrintable c = true := by
    rw [isPrintable, if_pos h.2]
    exact decide_eq_true h.1
  unfold quotedChar shortEscape?
  rw [hline (d := '\n') (by decide), hline (d := '\r') (by decide), hline (d := '\t') (by decide), hprintable]
  by_cases hc : c = q ∨ c = '\\'
  · simp [hc]
  · simp [not_or.1 hc]

theorem quotedBody_eq_escaping {q : Char} (hcs : ∀ c ∈ cs, Visible c) : quotedBody q cs = escaping q cs := by
  induction cs with
  | nil => rfl
  | cons c cs ih =>
    obtain ⟨hc, hcs⟩ := List.forall_mem_cons.1 hcs
    rw [quotedBody, List.flatMap_cons, ← quotedBody, ih hcs, toList_quotedChar hc]
    rfl

/-- A quoted text of visible characters is one token, whatever follows. -/
theorem Scans.quoted {s : String} (h : ∀ c ∈ s.toList, Visible c) (rest : List Char) :
    Scans (quoted s).toList rest (Single (.str s)) := by
  have hq := quoteFor_eq s.toList
  have hself : unescapeChar (quoteFor s.toList) = quoteFor s.toList := by
    rcases hq with hq | hq <;> rw [hq] <;> rfl
  have hscan := scan?_of_quotedText hq (quotedText_escaping (quoteFor s.toList) s.toList) rest
  rw [unescape_escaping hself, String.ofList_toList] at hscan
  rw [toList_quoted, quotedBody_eq_escaping h]
  refine .of_scan? ?_
  rwa [List.length_append]

end TemplateEngine

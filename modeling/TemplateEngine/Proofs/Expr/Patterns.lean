/-
The lexemes of the expression language by what they look like: white space, numbers, quoted texts, symbols and words.
What is scanned at the head of a text is the longest lexeme there, and nothing is scanned only where no lexeme starts.
-/
import TemplateEngine.Proofs.Expr.Scanning

namespace TemplateEngine

open Text

variable {cs ds rest : List Char}

/-! ## Patterns -/

/-- One digit or more. -/
def Digits (cs : List Char) : Prop :=
  cs ≠ [] ∧ ∀ c ∈ cs, isDigit c = true

/-- Nothing, or a point with digits behind it. -/
inductive Fraction : List Char → Prop
  | none : Fraction []
  | digits {ds : List Char} (h : Digits ds) : Fraction ('.' :: ds)

/-- Nothing, or an `e` with a sign or none and digits behind it. -/
inductive Exponent : List Char → Prop
  | none : Exponent []
  | digits {e : Char} {sign ds : List Char} (he : e = 'e' ∨ e = 'E') (hs : sign = [] ∨ sign = ['+'] ∨ sign = ['-'])
      (h : Digits ds) : Exponent (e :: (sign ++ ds))

/-- Digits, a fraction or none, and an exponent or none. -/
inductive NumberText : List Char → Prop
  | mk {whole fraction exponent : List Char} (hw : Digits whole) (hf : Fraction fraction) (he : Exponent exponent) :
      NumberText (whole ++ (fraction ++ exponent))

/-- The texts of a lexeme. -/
inductive Lexeme.Describes : Lexeme → List Char → Prop
  | blank {cs : List Char} (hne : cs ≠ []) (h : ∀ c ∈ cs, isBlank c = true) : Describes .blank cs
  | number {cs : List Char} (h : NumberText cs) : Describes (.token (.number (String.ofList cs))) cs
  | quoted {q : Char} {body : List Char} (hq : q = '"' ∨ q = '\'') (h : QuotedText q body) :
      Describes (.token (.str (String.ofList (unescape body)))) (q :: (body ++ [q]))
  | symbol (s : Symbol) : Describes (.token (.symbol s)) s.chars
  | word {c : Char} {cs : List Char} (hc : isNameStart c = true) (hcs : ∀ c ∈ cs, isNameChar c = true) :
      Describes (.token (wordKind (c :: cs))) (c :: cs)

/-! ## Runs -/

theorem length_le_runLength {p : Char → Bool} (h : ∀ c ∈ cs, p c = true) (rest : List Char) :
    cs.length ≤ runLength p (cs ++ rest) := by
  rw [runLength_append_of_all h]
  exact Nat.le_add_right _ _

theorem of_mem_take_runLength {p : Char → Bool} {c : Char} (h : c ∈ cs.take (runLength p cs)) : p c = true := by
  rw [runLength, ← List.prefix_iff_eq_take.1 (List.takeWhile_prefix p)] at h
  exact List.mem_takeWhile_imp h

theorem digits_take_runLength (h : runLength isDigit cs ≠ 0) : Digits (cs.take (runLength isDigit cs)) := by
  refine ⟨fun hnil => h ?_, fun c => of_mem_take_runLength⟩
  have hlength := congrArg List.length hnil
  rwa [List.length_take, Nat.min_eq_left (runLength_le _ _)] at hlength

/-! ## Numbers -/

theorem Digits.head {c : Char} (h : Digits cs) (hc : c ∈ (cs ++ rest).head?) : isDigit c = true := by
  obtain ⟨d, ds, rfl⟩ := List.exists_cons_of_ne_nil h.1
  cases hc
  exact h.2 _ (List.mem_cons_self ..)

theorem Digits.signLength (h : Digits cs) (rest : List Char) : signLength (cs ++ rest) = 0 := by
  obtain ⟨d, ds, rfl⟩ := List.exists_cons_of_ne_nil h.1
  have hd := h.2 d (List.mem_cons_self ..)
  rw [List.cons_append, TemplateEngine.signLength, if_neg]
  intro hsign
  simp only [Bool.or_eq_true, beq_iff_eq] at hsign
  rcases hsign with rfl | rfl <;> exact absurd hd (by decide)

/-- The digits and the fraction at the head of a text are those of a number, if neither of them goes on. -/
theorem mantissaLength_exact {whole fraction : List Char} (hw : Digits whole) (hf : Fraction fraction)
    (hrest : ∀ c ∈ rest.head?, isDigit c = false) (hpoint : fraction = [] → fractionLength rest = 0) :
    mantissaLength (whole ++ (fraction ++ rest)) = whole.length + fraction.length := by
  cases hf with
  | none =>
    rw [mantissaLength, List.nil_append, runLength_word hw.2 hrest, List.drop_left, hpoint rfl]
    rfl
  | @digits ds h =>
    have hwhole : runLength isDigit (whole ++ ('.' :: ds ++ rest)) = whole.length :=
      runLength_word hw.2 (by rintro c ⟨⟩; decide)
    have hfraction := runLength_word h.2 hrest
    have hne := List.length_pos_iff.2 h.1
    rw [mantissaLength, hwhole, List.drop_left, List.cons_append, fractionLength, hfraction, List.length_cons, if_neg]
    · omega
    · simpa using h.1

theorem mantissaLength_ge {whole fraction : List Char} (hw : Digits whole) (hf : Fraction fraction) (rest : List Char) :
    whole.length + fraction.length ≤ mantissaLength (whole ++ (fraction ++ rest)) := by
  cases hf with
  | none =>
    have hwhole := length_le_runLength hw.2 ([] ++ rest)
    unfold mantissaLength
    dsimp only
    split <;> simp only [List.length_nil] <;> omega
  | @digits ds h =>
    have hwhole : runLength isDigit (whole ++ ('.' :: ds ++ rest)) = whole.length :=
      runLength_word hw.2 (by rintro c ⟨⟩; decide)
    have hfraction := length_le_runLength h.2 rest
    have hne := List.length_pos_iff.2 h.1
    rw [mantissaLength, hwhole, List.drop_left, List.cons_append, fractionLength, List.length_cons, if_neg]
    · omega
    · simp only [beq_iff_eq]
      omega

theorem exponentLength_ge {exponent : List Char} (h : Exponent exponent) (rest : List Char) :
    exponent.length ≤ exponentLength (exponent ++ rest) := by
  cases h with
  | none => exact Nat.zero_le _
  | @digits e sign ds he hs h =>
    have hsign : signLength (sign ++ ds ++ rest) = sign.length := by
      rcases hs with rfl | rfl | rfl
      · rw [List.nil_append, h.signLength]
        rfl
      · rfl
      · rfl
    have hdigits := length_le_runLength h.2 rest
    have hne := List.length_pos_iff.2 h.1
    rw [List.cons_append, exponentLength_cons, if_pos (by simpa using he), hsign, List.append_assoc, List.drop_left,
      List.length_cons, List.length_append, if_neg]
    · omega
    · simp only [beq_iff_eq]
      omega

/-- A number at the head of a text is not longer than the one that is scanned. -/
theorem length_le_numberLength (h : NumberText cs) (rest : List Char) : cs.length ≤ numberLength (cs ++ rest) := by
  cases h with
  | @mk whole fraction exponent hw hf he =>
    have hwhole : runLength isDigit (whole ++ (fraction ++ exponent) ++ rest) ≠ 0 := by
      have hle := length_le_runLength hw.2 (fraction ++ exponent ++ rest)
      have hne := List.length_pos_iff.2 hw.1
      rw [List.append_assoc]
      omega
    have hexponent := exponentLength_ge he rest
    rw [numberLength_def, if_neg (by simpa using hwhole), List.length_append, List.length_append, List.append_assoc,
      List.append_assoc]
    cases he with
    | none =>
      have hle := mantissaLength_ge hw hf ([] ++ rest)
      rw [List.length_nil]
      omega
    | @digits e sign ds hmark hs h =>
      have hmantissa : mantissaLength (whole ++ (fraction ++ (e :: (sign ++ ds) ++ rest))) =
          (whole ++ fraction).length := by
        rw [List.length_append]
        refine mantissaLength_exact hw hf ?_ fun _ => ?_
        · rintro c ⟨⟩
          rcases hmark with rfl | rfl <;> decide
        · rcases hmark with rfl | rfl <;> rfl
      rw [hmantissa, ← List.append_assoc, List.drop_left, List.length_append]
      omega

theorem exponent_take (cs : List Char) : Exponent (cs.take (exponentLength cs)) := by
  cases cs with
  | nil => exact .none
  | cons c cs =>
    rw [exponentLength_cons]
    split
    · rename_i hc
      split
      · exact .none
      · rename_i hne
        rw [beq_iff_eq] at hne
        have hdigits := digits_take_runLength hne
        have hsign : cs.take (signLength cs) = [] ∨ cs.take (signLength cs) = ['+'] ∨
            cs.take (signLength cs) = ['-'] := by
          cases cs with
          | nil => exact .inl rfl
          | cons d cs =>
            rw [signLength]
            split
            · rename_i hd
              simp only [Bool.or_eq_true, beq_iff_eq] at hd
              rcases hd with rfl | rfl
              · exact .inr (.inl rfl)
              · exact .inr (.inr rfl)
            · exact .inl rfl
        rw [Nat.add_assoc, Nat.add_comm 1, List.take_succ_cons, List.take_add]
        exact .digits (by simpa using hc) hsign hdigits
    · exact .none

theorem exists_mantissa (h : runLength isDigit cs ≠ 0) :
    ∃ whole fraction, Digits whole ∧ Fraction fraction ∧ cs.take (mantissaLength cs) = whole ++ fraction := by
  have hwhole := digits_take_runLength h
  unfold mantissaLength
  dsimp only
  split
  · exact ⟨_, [], hwhole, .none, (List.append_nil _).symm⟩
  · rename_i hne
    rw [beq_iff_eq] at hne
    obtain ⟨ds, hds⟩ : ∃ ds, cs.drop (runLength isDigit cs) = '.' :: ds := by
      revert hne
      unfold fractionLength
      split
      · exact fun _ => ⟨_, ‹_›⟩
      · exact fun hne => absurd rfl hne
    rw [hds, fractionLength] at hne ⊢
    refine ⟨_, '.' :: ds.take (runLength isDigit ds), hwhole, .digits (digits_take_runLength hne), ?_⟩
    rw [Nat.add_assoc, List.take_add, hds, Nat.add_comm 1, List.take_succ_cons]

theorem NumberText.ne_nil (h : NumberText cs) : cs ≠ [] := by
  cases h with
  | mk hw hf he => exact List.append_ne_nil_of_left_ne_nil hw.1 _

/-- What is scanned at a digit is a number. -/
theorem numberText_take (h : runLength isDigit cs ≠ 0) : NumberText (cs.take (numberLength cs)) := by
  obtain ⟨whole, fraction, hw, hf, hmantissa⟩ := exists_mantissa h
  rw [numberLength_def, if_neg (by simpa using h), List.take_add, hmantissa, List.append_assoc]
  exact .mk hw hf (exponent_take _)

/-! ## Symbols -/

theorem Symbol.mem_all (s : Symbol) : s ∈ all := by
  cases s <;> decide

theorem Symbol.chars_injective {s t : Symbol} (h : s.chars = t.chars) : s = t := by
  have hall : ∀ s ∈ all, ∀ t ∈ all, s.chars = t.chars → s = t := by decide
  exact hall s s.mem_all t t.mem_all h

theorem Symbol.length_chars (s : Symbol) : s.chars.length = 1 ∨ s.chars.length = 2 := by
  cases s <;> decide

theorem Symbol.prefix_of_ofHead? {s : Symbol} (h : ofHead? cs = some s) : s.chars <+: cs := by
  have hprefix := List.find?_some h
  exact List.isPrefixOf_iff_prefix.1 hprefix

theorem Symbol.ofHead?_of_length {s : Symbol} (h : s.chars.length = 2) (rest : List Char) :
    ofHead? (s.chars ++ rest) = some s := by
  cases s <;> first | rfl | exact absurd h (by decide)

/-- A symbol at the head of a text is not longer than the one that is found. -/
theorem Symbol.exists_ofHead? (s : Symbol) (rest : List Char) :
    ∃ t, ofHead? (s.chars ++ rest) = some t ∧ s.chars.length ≤ t.chars.length ∧
      (t.chars.length = s.chars.length → t = s) := by
  rcases s.length_chars with hone | htwo
  · obtain ⟨t, ht⟩ : ∃ t, ofHead? (s.chars ++ rest) = some t := by
      refine Option.isSome_iff_exists.1 (List.find?_isSome.2 ⟨s, s.mem_all, ?_⟩)
      exact List.isPrefixOf_iff_prefix.2 (List.prefix_append ..)
    refine ⟨t, ht, by rcases t.length_chars with h | h <;> omega, fun hlength => chars_injective ?_⟩
    rw [List.prefix_iff_eq_take.1 (prefix_of_ofHead? ht), hlength, List.take_left]
  · exact ⟨s, ofHead?_of_length htwo rest, Nat.le_refl _, fun _ => rfl⟩

/-! ## The lexeme at the head of a text -/

theorem isBlank_of_isDigit {c : Char} (h : isDigit c = true) : isBlank c = false := by
  have hall : ∀ n ∈ blanks, isDigit (Char.ofNat n) = false := by decide +kernel
  by_contra hb
  have hc := hall _ (toNat_mem_blanks (by simpa using hb))
  rw [Char.ofNat_toNat, h] at hc
  cases hc

theorem NumberText.head {c : Char} (h : NumberText (c :: cs)) : isDigit c = true := by
  generalize htext : c :: cs = text at h
  cases h with
  | mk hw hf he => exact hw.head (by rw [← htext]; rfl)

/-- Where a lexeme starts, the lexeme that is scanned is as long at least, and no other one is as long. -/
theorem scan?_of_describes {c : Char} {l : Lexeme} (h : l.Describes (c :: cs)) (rest : List Char) :
    ∃ l' n, scan? c (cs ++ rest) = some (l', n) ∧ cs.length ≤ n ∧ (n = cs.length → l' = l) := by
  generalize htext : c :: cs = text at h
  cases h with
  | blank hne hblank =>
    subst htext
    obtain ⟨hc, hcs⟩ := List.forall_mem_cons.1 hblank
    exact ⟨.blank, _, scan?_of_blank hc _, length_le_runLength hcs rest, fun _ => rfl⟩
  | number hnumber =>
    subst htext
    have hle := length_le_numberLength hnumber rest
    rw [List.length_cons, List.cons_append] at hle
    have hscan : scan? c (cs ++ rest) = some (.token (.number (String.ofList
        (c :: (cs ++ rest).take (numberLength (c :: (cs ++ rest)) - 1)))), numberLength (c :: (cs ++ rest)) - 1) := by
      rw [scan?, isBlank_of_isDigit hnumber.head, hnumber.head]
      rfl
    refine ⟨_, _, hscan, by omega, fun hlength => ?_⟩
    rw [hlength, List.take_left]
  | @quoted q body hq hbody =>
    obtain ⟨rfl, rfl⟩ := List.cons.inj htext
    exact ⟨_, _, scan?_of_quotedText hq hbody rest, by simp, fun _ => rfl⟩
  | symbol s =>
    obtain ⟨t, ht, hle, heq⟩ := s.exists_ofHead? rest
    obtain ⟨d, ds, hs, hblank, hdigit, hquote⟩ := s.exists_chars
    obtain ⟨rfl, rfl⟩ := List.cons.inj (htext.trans hs)
    rw [hs] at ht
    rw [hs, List.length_cons] at hle heq
    refine ⟨_, _, scan?_of_symbol hblank hdigit hquote ht, by omega, fun hlength => ?_⟩
    rw [heq (by omega)]
  | @word d ds hc hcs =>
    obtain ⟨rfl, rfl⟩ := List.cons.inj htext
    have hname := isNameChar_of_isNameStart hc
    have hscan : scan? c (cs ++ rest) =
        some (.token (wordKind (c :: (cs ++ rest).take (runLength isNameChar (cs ++ rest)))),
          runLength isNameChar (cs ++ rest)) := by
      rw [scan?, isBlank_of_isNameChar hname, isDigit_of_isNameStart hc, not_quote_of_isNameChar hname,
        ofHead?_of_isNameStart hc, hc]
      rfl
    refine ⟨_, _, hscan, length_le_runLength hcs rest, fun hlength => ?_⟩
    rw [hlength, List.take_left]

theorem describes_of_scan? {c : Char} {l : Lexeme} {n : Nat} (h : scan? c cs = some (l, n)) :
    l.Describes (c :: cs.take n) := by
  unfold scan? at h
  split at h
  · rename_i hc
    cases h
    exact .blank (List.cons_ne_nil _ _) (List.forall_mem_cons.2 ⟨hc, fun d => of_mem_take_runLength⟩)
  · split at h
    · rename_i hc
      cases h
      have hwhole : runLength isDigit (c :: cs) ≠ 0 := by
        rw [runLength, List.takeWhile_cons, if_pos hc]
        exact Nat.succ_ne_zero _
      have hnumber := numberText_take hwhole
      have hlength : numberLength (c :: cs) = numberLength (c :: cs) - 1 + 1 := by
        refine (Nat.succ_pred ?_).symm
        intro hzero
        rw [hzero] at hnumber
        cases hnumber.ne_nil rfl
      rw [hlength, List.take_succ_cons] at hnumber
      exact .number hnumber
    · split at h
      · rename_i hq
        obtain ⟨m, hm, h⟩ := Option.map_eq_some_iff.1 h
        cases h
        obtain ⟨body, rest, hbody, rfl, rfl⟩ := exists_quotedText hm
        have htake : (body ++ c :: rest).take (body.length + 1) = body ++ [c] := by
          rw [List.take_length_add_append, List.take_succ_cons, List.take_zero]
        rw [htake, Nat.add_sub_cancel, List.take_left]
        exact .quoted (by simpa using hq) hbody
      · split at h
        · rename_i s hs
          cases h
          have htake := List.prefix_iff_eq_take.1 (Symbol.prefix_of_ofHead? hs)
          obtain ⟨d, ds, hchars, -⟩ := s.exists_chars
          have hone : s.chars.length = s.chars.length - 1 + 1 := by rw [hchars]; rfl
          rw [hone, List.take_succ_cons] at htake
          rw [← htake]
          exact .symbol s
        · split at h
          · rename_i hc
            cases h
            exact .word hc fun d => of_mem_take_runLength
          · cases h

/-! ## Longest lexemes -/

/-- A lexeme at the head of a text, and no lexeme there takes more of it. -/
structure Lexeme.Longest (l : Lexeme) (lexeme rest : List Char) : Prop where
  describes : l.Describes lexeme
  length_le : ∀ {l' : Lexeme} {cs ds : List Char}, l'.Describes cs → cs ++ ds = lexeme ++ rest →
    cs.length ≤ lexeme.length

/-- No lexeme starts at the head of a text. -/
def NoLexeme (cs : List Char) : Prop :=
  ∀ (l : Lexeme) (lexeme : List Char), l.Describes lexeme → ¬ lexeme <+: cs

theorem Lexeme.Describes.ne_nil {l : Lexeme} (h : l.Describes cs) : cs ≠ [] := by
  cases h with
  | blank hne => exact hne
  | number h => exact h.ne_nil
  | quoted => exact List.cons_ne_nil _ _
  | symbol s => cases s <;> exact List.cons_ne_nil _ _
  | word => exact List.cons_ne_nil _ _

theorem scan?_eq_some_of_longest {c : Char} {l : Lexeme} (h : l.Longest (c :: cs) rest) :
    scan? c (cs ++ rest) = some (l, cs.length) := by
  obtain ⟨l', n, hscan, hle, heq⟩ := scan?_of_describes h.describes rest
  have hsplit : c :: (cs ++ rest).take n ++ (cs ++ rest).drop n = c :: cs ++ rest := by
    rw [List.cons_append, List.take_append_drop, List.cons_append]
  have hlength := h.length_le (describes_of_scan? hscan) hsplit
  have hn := scan?_le hscan
  rw [List.length_cons, List.length_take, List.length_cons, Nat.min_eq_left hn] at hlength
  obtain rfl : n = cs.length := by omega
  rw [hscan, heq rfl]

theorem longest_of_scan? {c : Char} {l : Lexeme} {n : Nat} (h : scan? c cs = some (l, n)) :
    l.Longest (c :: cs.take n) (cs.drop n) := by
  refine ⟨describes_of_scan? h, fun {l' ds es} hl hds => ?_⟩
  obtain ⟨d, ds, rfl⟩ := List.exists_cons_of_ne_nil hl.ne_nil
  rw [List.cons_append, List.cons_append, List.take_append_drop] at hds
  obtain ⟨rfl, rfl⟩ := List.cons.inj hds
  obtain ⟨l'', m, hscan, hle, -⟩ := scan?_of_describes hl es
  rw [h] at hscan
  cases hscan
  rw [List.length_cons, List.length_cons, List.length_take, Nat.min_eq_left (scan?_le h)]
  exact Nat.succ_le_succ hle

/-- Nothing is scanned exactly where no lexeme starts. -/
theorem scan?_eq_none_iff {c : Char} : scan? c cs = none ↔ NoLexeme (c :: cs) := by
  constructor
  · rintro hnone l lexeme hl ⟨rest, hrest⟩
    obtain ⟨d, ds, rfl⟩ := List.exists_cons_of_ne_nil hl.ne_nil
    obtain ⟨rfl, rfl⟩ := List.cons.inj hrest
    obtain ⟨l', n, hscan, -⟩ := scan?_of_describes hl rest
    exact absurd (hnone.symm.trans hscan) nofun
  · intro h
    cases hscan : scan? c cs with
    | none => rfl
    | some found =>
      obtain ⟨l, n⟩ := found
      refine absurd ⟨cs.drop n, ?_⟩ (h l _ (describes_of_scan? hscan))
      rw [List.cons_append, List.take_append_drop]

/-! ## Lexemes in front of a blank -/

theorem NumberText.not_space (h : NumberText cs) : ' ' ∉ cs := by
  have hdigits {ds : List Char} (h : Digits ds) : ' ' ∉ ds := fun hmem => absurd (h.2 _ hmem) (by decide)
  cases h with
  | mk hw hf he =>
    rw [List.mem_append, List.mem_append, not_or, not_or]
    refine ⟨hdigits hw, ?_, ?_⟩
    · cases hf with
      | none => exact List.not_mem_nil
      | digits h => simpa using hdigits h
    · cases he with
      | none => exact List.not_mem_nil
      | digits he hs h =>
        have hds := hdigits h
        rcases he with rfl | rfl <;> rcases hs with rfl | rfl | rfl <;> simpa using hds

/-- A blank stands in no lexeme but white space and quoted texts. -/
theorem Lexeme.Describes.not_space {c : Char} {l : Lexeme} (h : l.Describes (c :: cs)) (hblank : isBlank c = false)
    (hquote : (c == '"' || c == '\'') = false) : ' ' ∉ c :: cs := by
  generalize htext : c :: cs = text at h ⊢
  cases h with
  | blank hne hall =>
    subst htext
    rw [hall c (List.mem_cons_self ..)] at hblank
    cases hblank
  | number h => exact h.not_space
  | quoted hq =>
    obtain ⟨rfl, -⟩ := List.cons.inj htext
    rcases hq with rfl | rfl <;> cases hquote
  | symbol s => cases s <;> decide
  | word hc hcs =>
    intro hmem
    rcases List.mem_cons.1 hmem with rfl | hmem
    · exact absurd hc (by decide)
    · exact absurd (hcs _ hmem) (by decide)

/-- A text that is empty or starts with a blank. -/
def Spaced (rest : List Char) : Prop :=
  ∀ c ∈ rest.head?, c = ' '

theorem Spaced.nil : Spaced [] :=
  nofun

theorem Lexeme.Describes.longest_of_head {c : Char} {l : Lexeme} (h : l.Describes (c :: cs)) (hrest : Spaced rest)
    (hblank : isBlank c = false) (hquote : (c == '"' || c == '\'') = false) : l.Longest (c :: cs) rest := by
  refine ⟨h, fun {l' ds es} hl hds => ?_⟩
  obtain ⟨us, hus, -⟩ | ⟨us, rfl, rfl⟩ := List.append_eq_append_iff.1 hds
  · rw [hus, List.length_append]
    exact Nat.le_add_right _ _
  · cases us with
    | nil => rw [List.append_nil]
    | cons u us =>
      obtain rfl := hrest u rfl
      exact absurd (by simp) (hl.not_space hblank hquote)

theorem not_quote_of_isDigit {c : Char} (h : isDigit c = true) : (c == '"' || c == '\'') = false := by
  by_contra hq
  simp only [Bool.not_eq_false, Bool.or_eq_true, beq_iff_eq] at hq
  rcases hq with rfl | rfl <;> exact absurd h (by decide)

/-- In front of a blank a token is the longest lexeme. -/
theorem Lexeme.Describes.longest {k : ExprTokenKind} (h : (token k).Describes cs) (hrest : Spaced rest) :
    (token k).Longest cs rest := by
  have hdescribes := h
  cases h with
  | number hnumber =>
    obtain ⟨c, cs, rfl⟩ := List.exists_cons_of_ne_nil hnumber.ne_nil
    exact hdescribes.longest_of_head hrest (isBlank_of_isDigit hnumber.head) (not_quote_of_isDigit hnumber.head)
  | @quoted q body hq hbody =>
    have hlongest := longest_of_scan? (scan?_of_quotedText hq hbody rest)
    rwa [List.take_left' (by simp), List.drop_left' (by simp)] at hlongest
  | symbol s =>
    obtain ⟨c, cs, hs, hblank, -, hquote⟩ := s.exists_chars
    rw [hs] at hdescribes ⊢
    exact hdescribes.longest_of_head hrest hblank hquote
  | word hc =>
    have hname := isNameChar_of_isNameStart hc
    exact hdescribes.longest_of_head hrest (isBlank_of_isNameChar hname) (not_quote_of_isNameChar hname)

end TemplateEngine

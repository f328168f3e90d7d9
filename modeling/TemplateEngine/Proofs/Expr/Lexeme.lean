/-
Lexemes of a text in front of another one. What follows a text changes no lexeme of it, if it has no quotes and
starts with no character that goes on with a number, a word or a symbol; so the tokens of both are those of the one
and those of the other. White space is such a text, and gives no tokens.
-/
import TemplateEngine.Expr.Token
import TemplateEngine.Proofs.Result

namespace TemplateEngine

open Text

/-! ## Texts that take nothing from a lexeme in front of them -/

/-- A text without quotes that does not go on with a number, a word or a symbol in front of it. -/
structure Aside (rest : List Char) : Prop where
  quoteless : ∀ c ∈ rest, c ≠ '"' ∧ c ≠ '\''
  digit : ∀ c ∈ rest.head?, isDigit c = false
  name : ∀ c ∈ rest.head?, isNameChar c = false
  symbol : ∀ c ∈ rest.head?, c ∉ ['.', '+', '-', '/', '=', '&', '|']

/-- The code points of white space. -/
def blanks : List Nat :=
  [9, 10, 11, 12, 13, 28, 29, 30, 31, 32, 0x85, 0xA0, 0x1680, 0x2000, 0x2001, 0x2002, 0x2003, 0x2004, 0x2005, 0x2006,
    0x2007, 0x2008, 0x2009, 0x200A, 0x2028, 0x2029, 0x202F, 0x205F, 0x3000]

theorem toNat_mem_blanks {c : Char} (h : isBlank c = true) : c.toNat ∈ blanks := by
  simp only [isBlank, isWideBlank, Bool.or_eq_true, Bool.and_eq_true, decide_eq_true_eq, beq_iff_eq] at h
  simp only [blanks, List.mem_cons, List.not_mem_nil, or_false]
  omega

theorem aside_of_blank {rest : List Char} (h : ∀ c ∈ rest, isBlank c = true) : Aside rest := by
  have hall : ∀ n ∈ blanks, (Char.ofNat n ≠ '"' ∧ Char.ofNat n ≠ '\'') ∧ isDigit (Char.ofNat n) = false ∧
      isNameChar (Char.ofNat n) = false ∧ Char.ofNat n ∉ ['.', '+', '-', '/', '=', '&', '|'] := by
    decide +kernel
  have hblank (c : Char) (hc : c ∈ rest) := hall _ (toNat_mem_blanks (h c hc))
  simp only [Char.ofNat_toNat] at hblank
  have hhead (c : Char) (hc : c ∈ rest.head?) := hblank c (List.mem_of_mem_head? hc)
  exact ⟨fun c hc => (hblank c hc).1, fun c hc => (hhead c hc).2.1, fun c hc => (hhead c hc).2.2.1,
    fun c hc => (hhead c hc).2.2.2⟩

/-! ## Runs -/

section

variable {p : Char → Bool} {rest : List Char}

theorem runLength_le (p : Char → Bool) (cs : List Char) : runLength p cs ≤ cs.length :=
  (List.takeWhile_sublist p).length_le

/-- A run ends where the text ends, if what follows is not of its class. -/
theorem runLength_append (h : ∀ c ∈ rest.head?, p c = false) (cs : List Char) :
    runLength p (cs ++ rest) = runLength p cs := by
  have hnil : rest.takeWhile p = [] := by
    cases rest with
    | nil => rfl
    | cons c rest => rw [List.takeWhile_cons, h c rfl, if_neg Bool.false_ne_true]
  unfold runLength
  rw [List.takeWhile_append, hnil, List.append_nil]
  split
  · rename_i hlength
    exact hlength.symm
  · rfl

/-- A run takes all of a text of its class along. -/
theorem runLength_append_of_all {cs : List Char} (h : ∀ c ∈ cs, p c = true) (rest : List Char) :
    runLength p (cs ++ rest) = cs.length + runLength p rest := by
  unfold runLength
  rw [List.takeWhile_append_of_pos h, List.length_append]

end

/-! ## Numbers by their parts -/

/-- The length of the sign at the head of a text. -/
def signLength : List Char → Nat
  | c :: _ => if c == '+' || c == '-' then 1 else 0
  | [] => 0

/-- The number of digits after the point at the head of a text. -/
def fractionLength : List Char → Nat
  | '.' :: cs => runLength isDigit cs
  | _ => 0

/-- The length of a number without its exponent. -/
def mantissaLength (cs : List Char) : Nat :=
  let whole := runLength isDigit cs
  let fraction := fractionLength (cs.drop whole)
  if fraction == 0 then whole else whole + 1 + fraction

theorem exponentLength_cons (c : Char) (cs : List Char) :
    exponentLength (c :: cs) =
      if c == 'e' || c == 'E' then
        if runLength isDigit (cs.drop (signLength cs)) == 0 then 0
        else 1 + signLength cs + runLength isDigit (cs.drop (signLength cs))
      else 0 := by
  cases cs <;> rfl

theorem numberLength_def (cs : List Char) :
    numberLength cs =
      if runLength isDigit cs == 0 then 0
      else mantissaLength cs + exponentLength (cs.drop (mantissaLength cs)) := by
  unfold numberLength mantissaLength fractionLength
  rfl

theorem signLength_le (cs : List Char) : signLength cs ≤ cs.length := by
  cases cs with
  | nil => exact Nat.le_refl 0
  | cons c cs =>
    rw [signLength, List.length_cons]
    split <;> omega

theorem fractionLength_le (cs : List Char) : fractionLength cs ≤ cs.length - 1 := by
  unfold fractionLength
  split
  · exact runLength_le _ _
  · exact Nat.zero_le _

theorem mantissaLength_le (cs : List Char) : mantissaLength cs ≤ cs.length := by
  have hle := runLength_le isDigit cs
  have hfraction := fractionLength_le (cs.drop (runLength isDigit cs))
  rw [List.length_drop] at hfraction
  unfold mantissaLength
  dsimp only
  split
  · exact hle
  · rename_i hne
    simp only [beq_iff_eq] at hne
    omega

theorem exponentLength_le (cs : List Char) : exponentLength cs ≤ cs.length := by
  cases cs with
  | nil => exact Nat.le_refl 0
  | cons c cs =>
    have hsign := signLength_le cs
    have hle := runLength_le isDigit (cs.drop (signLength cs))
    rw [List.length_drop] at hle
    rw [exponentLength_cons, List.length_cons]
    split
    · split <;> omega
    · exact Nat.zero_le _

theorem numberLength_le (cs : List Char) : numberLength cs ≤ cs.length := by
  have hmantissa := mantissaLength_le cs
  have hexponent := exponentLength_le (cs.drop (mantissaLength cs))
  rw [List.length_drop] at hexponent
  rw [numberLength_def]
  split <;> omega

/-! ## Lexemes in front of such a text -/

namespace Aside

variable {rest : List Char} (h : Aside rest)

include h

theorem signLength_eq (cs : List Char) : signLength (cs ++ rest) = signLength cs := by
  cases cs with
  | nil =>
    cases rest with
    | nil => rfl
    | cons c rest =>
      have hc := h.symbol c rfl
      simp only [List.mem_cons, not_or] at hc
      simp [signLength, hc]
  | cons c cs => rfl

theorem fractionLength_eq (cs : List Char) : fractionLength (cs ++ rest) = fractionLength cs := by
  have hdigits := runLength_append h.digit
  cases cs with
  | nil =>
    cases rest with
    | nil => rfl
    | cons c rest =>
      have hc := h.symbol c rfl
      simp only [List.mem_cons, not_or] at hc
      simp [fractionLength, hc]
  | cons c cs =>
    by_cases hc : c = '.'
    · subst hc
      exact hdigits cs
    · simp [fractionLength, hc]

theorem mantissaLength_eq (cs : List Char) : mantissaLength (cs ++ rest) = mantissaLength cs := by
  unfold mantissaLength
  dsimp only
  rw [runLength_append h.digit, List.drop_append_of_le_length (runLength_le isDigit cs), h.fractionLength_eq]

theorem exponentLength_eq (cs : List Char) : exponentLength (cs ++ rest) = exponentLength cs := by
  have hdigits := runLength_append h.digit
  cases cs with
  | nil =>
    cases rest with
    | nil => rfl
    | cons c rest =>
      have hc := h.name c rfl
      rw [List.nil_append, exponentLength_cons, if_neg]
      · rfl
      · intro he
        simp only [Bool.or_eq_true, beq_iff_eq] at he
        rcases he with rfl | rfl <;> cases hc
  | cons c cs =>
    rw [List.cons_append, exponentLength_cons, exponentLength_cons, h.signLength_eq,
      List.drop_append_of_le_length (signLength_le cs), hdigits]

theorem numberLength_eq (cs : List Char) : numberLength (cs ++ rest) = numberLength cs := by
  rw [numberLength_def, numberLength_def, runLength_append h.digit, h.mantissaLength_eq,
    List.drop_append_of_le_length (mantissaLength_le cs), h.exponentLength_eq]

end Aside

/-! ## Quoted texts -/

theorem quotedLength?_le {q : Char} {cs : List Char} {n : Nat} (h : quotedLength? q cs = some n) : n ≤ cs.length := by
  fun_induction quotedLength? q cs generalizing n with
  | case1 => cases h
  | case2 => cases h
  | case3 c cs ih =>
    obtain ⟨m, hm, rfl⟩ := Option.map_eq_some_iff.1 h
    exact Nat.succ_le_succ (Nat.succ_le_succ (ih hm))
  | case4 c cs _ _ hq =>
    cases h
    exact Nat.succ_le_succ (Nat.zero_le _)
  | case5 c cs _ _ hq ih =>
    obtain ⟨m, hm, rfl⟩ := Option.map_eq_some_iff.1 h
    exact Nat.succ_le_succ (ih hm)

theorem quotedLength?_of_not_mem {q : Char} {cs : List Char} (h : q ∉ cs) : quotedLength? q cs = none := by
  fun_induction quotedLength? q cs with
  | case1 => rfl
  | case2 => rfl
  | case3 c cs ih =>
    rw [ih (fun hq => h (.tail _ (.tail _ hq))), Option.map_none]
  | case4 c cs _ _ hq =>
    rw [beq_iff_eq] at hq
    exact absurd (hq ▸ .head _) h
  | case5 c cs _ _ hq ih =>
    rw [ih (fun hq => h (.tail _ hq)), Option.map_none]

theorem quotedLength?_cons {q c : Char} (hc : c ≠ '\\') (cs : List Char) :
    quotedLength? q (c :: cs) = if c == q then some 1 else (quotedLength? q cs).map (· + 1) := by
  rw [quotedLength?]
  · exact fun h _ => hc h
  · exact fun _ _ h _ => hc h

/-- A character is no backslash if none stands at the end of a text, and none before another character. -/
theorem ne_backslash {c : Char} {cs : List Char} (hlast : c = '\\' → cs = [] → False)
    (hescape : ∀ d ds, c = '\\' → cs = d :: ds → False) : c ≠ '\\' := by
  intro hc
  cases cs with
  | nil => exact hlast hc rfl
  | cons d ds => exact hescape d ds hc rfl

/-- A quoted text that has no end has none in a text without its quote. -/
theorem quotedLength?_append {q : Char} {rest : List Char} (h : q ∉ rest) (cs : List Char) :
    quotedLength? q (cs ++ rest) = quotedLength? q cs := by
  fun_induction quotedLength? q cs with
  | case1 => exact quotedLength?_of_not_mem h
  | case2 =>
    cases rest with
    | nil => rfl
    | cons c rest =>
      rw [List.singleton_append, quotedLength?, quotedLength?_of_not_mem (fun hq => h (.tail _ hq)), Option.map_none]
  | case3 c cs ih => rw [List.cons_append, List.cons_append, quotedLength?, ih]
  | case4 c cs hlast hescape hq =>
    rw [List.cons_append, quotedLength?_cons (ne_backslash hlast hescape), if_pos hq]
  | case5 c cs hlast hescape hq ih =>
    rw [List.cons_append, quotedLength?_cons (ne_backslash hlast hescape), if_neg hq, ih]

/-! ## Symbols -/

theorem Symbol.length_le_of_ofHead? {cs : List Char} {s : Symbol} (h : Symbol.ofHead? cs = some s) :
    s.chars.length ≤ cs.length := by
  have hprefix := List.find?_some h
  exact (List.isPrefixOf_iff_prefix.1 hprefix).length_le

theorem Aside.ofHead?_eq {rest : List Char} (h : Aside rest) (c : Char) (cs : List Char) :
    Symbol.ofHead? (c :: (cs ++ rest)) = Symbol.ofHead? (c :: cs) := by
  unfold Symbol.ofHead?
  congr 1
  funext s
  cases cs with
  | nil =>
    cases rest with
    | nil => rfl
    | cons d rest =>
      have hd := h.symbol d rfl
      simp only [List.mem_cons, not_or] at hd
      cases s <;> simp [Symbol.chars, List.isPrefixOf, Ne.symm, hd]
  | cons d ds => cases s <;> simp [Symbol.chars, List.isPrefixOf]

/-! ## Lexemes -/

theorem scan?_le {c : Char} {cs : List Char} {l : Lexeme} {n : Nat} (h : scan? c cs = some (l, n)) :
    n ≤ cs.length := by
  unfold scan? at h
  split at h
  · cases h
    exact runLength_le _ _
  · split at h
    · cases h
      have hle := numberLength_le (c :: cs)
      rw [List.length_cons] at hle
      omega
    · split at h
      · obtain ⟨m, hm, h⟩ := Option.map_eq_some_iff.1 h
        cases h
        exact quotedLength?_le hm
      · split at h
        · rename_i hs
          cases h
          have hle := Symbol.length_le_of_ofHead? hs
          rw [List.length_cons] at hle
          omega
        · split at h
          · cases h
            exact runLength_le _ _
          · cases h

theorem scan?_of_blank {c : Char} (hc : isBlank c = true) (cs : List Char) :
    scan? c cs = some (.blank, runLength isBlank cs) := by
  rw [scan?, if_pos hc]

theorem scan?_ne_blank {c : Char} (hc : isBlank c = false) (cs : List Char) (n : Nat) :
    scan? c cs ≠ some (.blank, n) := by
  unfold scan?
  rw [hc, if_neg Bool.false_ne_true]
  dsimp only
  intro h
  split at h
  · cases h
  · split at h
    · obtain ⟨m, -, h⟩ := Option.map_eq_some_iff.1 h
      cases h
    · split at h
      · cases h
      · split at h <;> cases h

/-- The lexeme at the head of a text, if it is not white space, is the one at the head of the longer text. -/
theorem Aside.scan?_eq {rest : List Char} (h : Aside rest) {c : Char} (hc : isBlank c = false) (cs : List Char) :
    scan? c (cs ++ rest) = scan? c cs := by
  have hnumber := h.numberLength_eq (c :: cs)
  have hle := numberLength_le (c :: cs)
  rw [List.cons_append] at hnumber
  rw [List.length_cons] at hle
  unfold scan?
  rw [hc]
  dsimp only
  rw [if_neg Bool.false_ne_true, if_neg Bool.false_ne_true, hnumber, h.ofHead?_eq, runLength_append h.name,
    List.take_append_of_le_length (by omega), List.take_append_of_le_length (runLength_le _ cs)]
  split
  · rfl
  · split
    · rename_i hquote
      have hmem : c ∉ rest := by
        intro hmem
        obtain ⟨hdouble, hsingle⟩ := h.quoteless c hmem
        simp [hdouble, hsingle] at hquote
      rw [quotedLength?_append hmem]
      cases hn : quotedLength? c cs with
      | none => rfl
      | some n =>
        have hn := quotedLength?_le hn
        rw [Option.map_some, Option.map_some, List.take_append_of_le_length (by omega)]
    · rfl

end TemplateEngine

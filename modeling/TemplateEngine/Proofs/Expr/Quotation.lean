/-
Quoted texts. The scanner looks for the quote that ends a text and takes each backslash with the character after it along,
and what stands between the quotes is unescaped by a second pass. Both cut a text into the same parts: no backslash is left
over at its end, and none is taken for the first of a pair by one pass and for the second by the other.

So every text has a literal for each of the quotes: with a backslash in front of its backslashes and of this quote, it is
one token with that text as its value.
-/
import TemplateEngine.Proofs.Expr.Lexeme

namespace TemplateEngine

open Text

variable {q c : Char} {cs rest : List Char}

/-! ## What stands between quotes -/

/-- What may stand between quotes: no quote and no backslash but with a backslash in front of it. -/
inductive QuotedText (q : Char) : List Char → Prop
  | nil : QuotedText q []
  | plain {c : Char} {cs : List Char} (hq : c ≠ q) (hb : c ≠ '\\') (h : QuotedText q cs) : QuotedText q (c :: cs)
  | escaped {c : Char} {cs : List Char} (h : QuotedText q cs) : QuotedText q ('\\' :: c :: cs)

/-- A quoted text ends at its quote, whatever follows. -/
theorem QuotedText.length_eq (hq : q ≠ '\\') (h : QuotedText q cs) (rest : List Char) :
    quotedLength? q (cs ++ q :: rest) = some (cs.length + 1) := by
  induction h with
  | nil => rw [List.nil_append, quotedLength?_cons hq, if_pos (beq_self_eq_true q)]; rfl
  | plain hcq hb h ih =>
    rw [List.cons_append, quotedLength?_cons hb, if_neg (by simpa using hcq), ih]
    rfl
  | escaped h ih =>
    rw [List.cons_append, List.cons_append, quotedLength?, ih]
    rfl

theorem exists_quotedText {n : Nat} (h : quotedLength? q cs = some n) :
    ∃ body rest, QuotedText q body ∧ cs = body ++ q :: rest ∧ n = body.length + 1 := by
  fun_induction quotedLength? q cs generalizing n with
  | case1 => cases h
  | case2 => cases h
  | case3 c cs ih =>
    obtain ⟨m, hm, rfl⟩ := Option.map_eq_some_iff.1 h
    obtain ⟨body, rest, hbody, rfl, rfl⟩ := ih hm
    exact ⟨'\\' :: c :: body, rest, .escaped hbody, rfl, rfl⟩
  | case4 c cs hlast hescape hq =>
    cases h
    rw [beq_iff_eq] at hq
    exact ⟨[], cs, .nil, by rw [hq]; rfl, rfl⟩
  | case5 c cs hlast hescape hq ih =>
    obtain ⟨m, hm, rfl⟩ := Option.map_eq_some_iff.1 h
    obtain ⟨body, rest, hbody, rfl, rfl⟩ := ih hm
    exact ⟨c :: body, rest, .plain (by simpa using hq) (ne_backslash hlast hescape) hbody, rfl, rfl⟩

theorem runLength_append_ite (p : Char → Bool) (cs ds : List Char) :
    runLength p (cs ++ ds) = if runLength p cs = cs.length then cs.length + runLength p ds else runLength p cs := by
  unfold runLength
  rw [List.takeWhile_append]
  split <;> simp

/-- The backslashes in front of the ending quote are pairs. -/
theorem QuotedText.two_dvd_backslashes (h : QuotedText q cs) : 2 ∣ runLength (· == '\\') cs.reverse := by
  induction h with
  | nil => exact Nat.dvd_zero 2
  | @plain c cs hq hb h ih =>
    rw [List.reverse_cons, runLength_append (by rintro d ⟨⟩; simpa using hb)]
    exact ih
  | @escaped c cs h ih =>
    -- in front of the run of the rest stand a pair of backslashes, or a backslash and something else
    have hpair : 2 ∣ runLength (· == '\\') [c, '\\'] := by
      by_cases hc : c = '\\' <;> simp [runLength, hc]
    rw [List.reverse_cons, List.reverse_cons, List.append_assoc, runLength_append_ite]
    split
    · rename_i hall
      rw [← hall]
      exact Nat.dvd_add ih hpair
    · exact ih

/-! ## Where the scanner takes a quoted text -/

theorem scan?_of_quotedText (hq : q = '"' ∨ q = '\'') (h : QuotedText q cs) (rest : List Char) :
    scan? q (cs ++ [q] ++ rest) = some (.token (.str (String.ofList (unescape cs))), cs.length + 1) := by
  have hlength := h.length_eq (by rcases hq with rfl | rfl <;> decide) rest
  have hquote : isBlank q = false ∧ isDigit q = false ∧ (q == '"' || q == '\'') = true := by
    rcases hq with rfl | rfl <;> decide
  rw [List.append_assoc, List.singleton_append, scan?, hquote.1, hquote.2.1, hquote.2.2, hlength]
  simp

theorem wordKind_ne_str (cs : List Char) (v : String) : wordKind cs ≠ .str v := by
  unfold wordKind
  dsimp only
  split <;> nofun

theorem exists_quotedText_of_scan? {v : String} {n : Nat} (h : scan? c cs = some (.token (.str v), n)) :
    ∃ body rest, (c = '"' ∨ c = '\'') ∧ QuotedText c body ∧ cs = body ++ c :: rest ∧ n = body.length + 1 ∧
      v = String.ofList (unescape body) := by
  unfold scan? at h
  split at h
  · cases h
  · split at h
    · cases h
    · split at h
      · rename_i hc
        obtain ⟨m, hm, h⟩ := Option.map_eq_some_iff.1 h
        obtain ⟨body, rest, hbody, rfl, rfl⟩ := exists_quotedText hm
        cases h
        exact ⟨body, rest, by simpa using hc, hbody, rfl, rfl, by simp⟩
      · split at h
        · cases h
        · split at h
          · obtain ⟨h, -⟩ := Prod.mk.inj (Option.some.inj h)
            exact absurd (Lexeme.token.inj h) (wordKind_ne_str _ _)
          · cases h

/-! ## The literal of a text -/

/-- A text with a backslash in front of each backslash and each quote. -/
def escaping (q : Char) (cs : List Char) : List Char :=
  cs.flatMap fun c => if c = q ∨ c = '\\' then ['\\', c] else [c]

theorem quotedText_escaping (q : Char) (cs : List Char) : QuotedText q (escaping q cs) := by
  induction cs with
  | nil => exact .nil
  | cons c cs ih =>
    rw [escaping, List.flatMap_cons]
    split
    · exact .escaped ih
    · rename_i hc
      rw [not_or] at hc
      exact .plain hc.1 hc.2 ih

theorem unescape_escaping (hq : unescapeChar q = q) (cs : List Char) : unescape (escaping q cs) = cs := by
  induction cs with
  | nil => rfl
  | cons c cs ih =>
    rw [escaping, List.flatMap_cons, ← escaping]
    by_cases hc : c = q ∨ c = '\\'
    · have hself : unescapeChar c = c := by
        rcases hc with rfl | rfl
        · exact hq
        · rfl
      rw [if_pos hc, List.cons_append, List.singleton_append, unescape, hself, ih]
    · rw [if_neg hc, List.singleton_append, unescape, ih]
      exact fun _ _ hb _ => hc (.inr hb)

/-- Where nothing needs a backslash, a text stays as it is. -/
theorem escaping_eq_self (h : ∀ c ∈ cs, c ≠ q ∧ c ≠ '\\') : escaping q cs = cs := by
  induction cs with
  | nil => rfl
  | cons c cs ih =>
    obtain ⟨hc, hcs⟩ := List.forall_mem_cons.1 h
    rw [escaping, List.flatMap_cons, ← escaping, if_neg (not_or.2 hc), ih hcs, List.singleton_append]

/-- A text between quotes, escaped. -/
def literalText (q : Char) (s : String) : String :=
  String.ofList (q :: (escaping q s.toList ++ [q]))

theorem tokenize_literalText (hq : q = '"' ∨ q = '\'') (s : String) :
    tokenize (literalText q s) = .ok [⟨.str s, 0⟩, ⟨.done, (literalText q s).length⟩] := by
  have hself : unescapeChar q = q := by rcases hq with rfl | rfl <;> rfl
  have hscan := scan?_of_quotedText hq (quotedText_escaping q s.toList) []
  rw [List.append_nil, unescape_escaping hself, String.ofList_toList] at hscan
  have hlength : (literalText q s).length = 0 + ((escaping q s.toList).length + 1) + 1 := by
    simp only [literalText, String.length_ofList, List.length_cons, List.length_append, List.length_nil]
    omega
  have hdrop : (escaping q s.toList ++ [q]).drop ((escaping q s.toList).length + 1) = [] := by simp
  rw [hlength, tokenize, literalText, String.toList_ofList, tokenizeFrom, hscan]
  dsimp only
  rw [hdrop, tokenizeFrom]
  rfl

/-! ## The parts of a quoted text -/

/-- A part at which unescaping looks: a character, or a backslash and the character after it. -/
inductive QuotedPart where
  | plain (c : Char)
  | escaped (c : Char)
  deriving DecidableEq, Repr

namespace QuotedPart

/-- The part as it is written. -/
def chars : QuotedPart → List Char
  | plain c => [c]
  | escaped c => ['\\', c]

/-- What the part stands for. -/
def value : QuotedPart → Char
  | plain c => c
  | escaped c => unescapeChar c

/-- The parts at which unescaping looks one after the other. A backslash with nothing behind it is a part by itself. -/
def cut : List Char → List QuotedPart
  | [] => []
  | '\\' :: c :: cs => escaped c :: cut cs
  | c :: cs => plain c :: cut cs

/-- A part of a text between quotes, as the scanner takes it. -/
def Fits (q : Char) : QuotedPart → Prop
  | plain c => c ≠ q ∧ c ≠ '\\'
  | escaped _ => True

end QuotedPart

open QuotedPart

theorem cut_cons (hc : c ≠ '\\') (cs : List Char) : cut (c :: cs) = plain c :: cut cs := by
  rw [cut]
  exact fun _ _ h _ => hc h

theorem flatMap_chars_cut (cs : List Char) : (cut cs).flatMap chars = cs := by
  fun_induction cut cs with
  | case1 => rfl
  | case2 c cs ih => rw [List.flatMap_cons, ih]; rfl
  | case3 c cs hc ih => rw [List.flatMap_cons, ih]; rfl

theorem map_value_cut (cs : List Char) : (cut cs).map value = unescape cs := by
  fun_induction cut cs with
  | case1 => rfl
  | case2 c cs ih => rw [List.map_cons, ih]; rfl
  | case3 c cs hc ih =>
    rw [List.map_cons, ih, unescape]
    · rfl
    · exact hc

theorem QuotedText.fits (h : QuotedText q cs) : ∀ p ∈ cut cs, p.Fits q := by
  induction h with
  | nil => exact List.forall_mem_nil _
  | plain hq hb h ih =>
    rw [cut_cons hb]
    exact List.forall_mem_cons.2 ⟨⟨hq, hb⟩, ih⟩
  | escaped h ih => exact List.forall_mem_cons.2 ⟨trivial, ih⟩

/-- There is one way only to cut a text into parts that fit. -/
theorem eq_cut_of_fits {ps : List QuotedPart} (h : ∀ p ∈ ps, p.Fits q) : ps = cut (ps.flatMap chars) := by
  induction ps with
  | nil => rfl
  | cons p ps ih =>
    obtain ⟨hp, hps⟩ := List.forall_mem_cons.1 h
    rw [List.flatMap_cons]
    cases p with
    | plain c =>
      show _ = cut (c :: ps.flatMap chars)
      rw [cut_cons hp.2, ← ih hps]
    | escaped c =>
      show _ = escaped c :: cut (ps.flatMap chars)
      rw [← ih hps]

/-- A text between quotes and the value that unescaping it gives. The parts that the scanner takes are those at which
unescaping looks, and they are the whole text. -/
structure Unescapes (q : Char) (body : List Char) (v : String) : Prop where
  value_eq : v = String.ofList (unescape body)
  parts_value : unescape body = (cut body).map value
  parts_iff : ∀ ps : List QuotedPart, (∀ p ∈ ps, p.Fits q) ∧ ps.flatMap chars = body ↔ ps = cut body
  backslashes : 2 ∣ runLength (· == '\\') body.reverse

theorem QuotedText.unescapes (h : QuotedText q cs) : Unescapes q cs (String.ofList (unescape cs)) := by
  refine ⟨rfl, (map_value_cut cs).symm, fun ps => ⟨?_, ?_⟩, h.two_dvd_backslashes⟩
  · rintro ⟨hps, rfl⟩
    exact eq_cut_of_fits hps
  · rintro rfl
    exact ⟨h.fits, flatMap_chars_cut cs⟩

/-- Each text is the value of its literal in either quotes, which is one token; and wherever the scanner takes a quoted
text, unescaping takes all of what stands between the quotes, in the same parts. -/
theorem literals_exact (hq : q = '"' ∨ q = '\'') (s : String) :
    tokenize (literalText q s) = .ok [⟨.str s, 0⟩, ⟨.done, (literalText q s).length⟩] ∧
    ∀ c cs v n, scan? c cs = some (.token (.str v), n) →
      ∃ body rest, (c = '"' ∨ c = '\'') ∧ cs = body ++ c :: rest ∧ n = body.length + 1 ∧ Unescapes c body v := by
  refine ⟨tokenize_literalText hq s, fun c cs v n hscan => ?_⟩
  obtain ⟨body, rest, hc, hbody, hcs, hn, rfl⟩ := exists_quotedText_of_scan? hscan
  exact ⟨body, rest, hc, hcs, hn, hbody.unescapes⟩

/-- Backslashes in front of a quote, at the end, and in front of backslashes. -/
theorem literals_exact_backslashes :
    tokenize "\"\\\\\\\"\n\x00'\\\\\"" = .ok [⟨.str "\\\"\n\x00'\\", 0⟩, ⟨.done, 11⟩] ∧
      scan? '\'' "\\n\\\\\\'\\\\' + 1".toList = some (.token (.str "\n\\'\\"), 9) ∧
      Unescapes '\'' "\\n\\\\\\'\\\\".toList "\n\\'\\" := by
  have hliteral : literalText '"' "\\\"\n\x00'\\" = "\"\\\\\\\"\n\x00'\\\\\"" := by decide
  have h := literals_exact (.inl rfl) "\\\"\n\x00'\\"
  have hscan : scan? '\'' "\\n\\\\\\'\\\\' + 1".toList = some (.token (.str "\n\\'\\"), 9) := by
    with_unfolding_all rfl
  obtain ⟨body, rest, -, hcs, hn, hunescapes⟩ := h.2 _ _ _ _ hscan
  have hbody : body = "\\n\\\\\\'\\\\".toList := by
    have htake := congrArg (List.take 8) hcs
    rw [List.take_left' (by omega)] at htake
    exact htake.symm
  rw [hliteral] at h
  exact ⟨h.1, hscan, hbody ▸ hunescapes⟩

end TemplateEngine

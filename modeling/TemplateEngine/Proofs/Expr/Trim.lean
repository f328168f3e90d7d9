/-
White space around an expression. It gives no tokens and moves the others, as any text does that takes nothing from the
lexemes in front of it, and an expression does not depend on where its tokens stand; so what is read is read without the
white space around it too.
-/
import TemplateEngine.Proofs.Expr.Lexeme
import TemplateEngine.Proofs.Expr.Reading
import TemplateEngine.Proofs.Expr.Synonyms
import TemplateEngine.Proofs.Tag.Markup

namespace TemplateEngine

open Text ExprGrammar

/-! ## Tokens between white space -/

/-- White space in front of tokens moves them. -/
theorem tokenizeFrom_skip (position : Nat) (cs : List Char) :
    tokenizeFrom position cs = tokenizeFrom (position + runLength isBlank cs) (cs.drop (runLength isBlank cs)) := by
  cases cs with
  | nil => rfl
  | cons c cs =>
    unfold runLength
    rw [List.takeWhile_cons]
    split
    · rename_i hc
      rw [tokenizeFrom, scan?_of_blank hc, List.length_cons, List.drop_succ_cons]
      rfl
    · rfl

theorem tokenizeFrom_blanks {lead : List Char} (h : ∀ c ∈ lead, isBlank c = true) (position : Nat) (cs : List Char) :
    tokenizeFrom position (lead ++ cs) = tokenizeFrom (position + lead.length) cs := by
  rw [tokenizeFrom_skip, tokenizeFrom_skip (position + lead.length), runLength_append_of_all h, Nat.add_assoc,
    List.drop_length_add_append]

/-- White space after the tokens only moves the end. -/
theorem tokenizeFrom_of_blanks {trail : List Char} (h : ∀ c ∈ trail, isBlank c = true) {position q : Nat}
    {cs : List Char} {ts : List ExprToken} (ht : tokenizeFrom position (cs ++ trail) = .ok (ts ++ [⟨.done, q⟩])) :
    ∃ q', tokenizeFrom position cs = .ok (ts ++ [⟨.done, q'⟩]) := by
  have haside := aside_of_blank h
  fun_induction tokenizeFrom position cs generalizing ts with
  | case1 position =>
    have hnone := tokenizeFrom_blanks h position []
    rw [List.append_nil] at hnone
    rw [List.nil_append, hnone, tokenizeFrom] at ht
    have hdone : [] ++ [⟨.done, position + trail.length⟩] = ts ++ [⟨.done, q⟩] := Except.ok.inj ht
    obtain ⟨rfl, -⟩ := List.append_inj' hdone rfl
    exact ⟨position, rfl⟩
  | case2 position c cs hscan =>
    cases hc : isBlank c with
    | true =>
      rw [scan?_of_blank hc] at hscan
      cases hscan
    | false =>
      rw [List.cons_append, tokenizeFrom, haside.scan?_eq hc, hscan] at ht
      cases ht
  | case3 position c cs n hscan ih =>
    cases hc : isBlank c with
    | true =>
      -- the white space at the head may end where `cs` has another character, or go on behind `cs`
      rw [scan?_of_blank hc] at hscan
      cases hscan
      have hlead : ∀ d ∈ c :: cs.takeWhile isBlank, isBlank d = true := by
        rintro d (_ | ⟨_, hd⟩)
        · exact hc
        · exact List.mem_takeWhile_imp hd
      have hdrop : cs.takeWhile isBlank ++ cs.drop (runLength isBlank cs) = cs :=
        List.prefix_iff_eq_append.1 (List.takeWhile_prefix _)
      have hsplit : c :: cs ++ trail = (c :: cs.takeWhile isBlank) ++ (cs.drop (runLength isBlank cs) ++ trail) := by
        rw [← List.append_assoc, List.cons_append, List.cons_append, hdrop]
        rfl
      rw [hsplit, tokenizeFrom_blanks hlead] at ht
      exact ih ht
    | false => exact absurd hscan (scan?_ne_blank hc cs n)
  | case4 position c cs k n hscan ih =>
    cases hc : isBlank c with
    | true =>
      rw [scan?_of_blank hc] at hscan
      cases hscan
    | false =>
      rw [List.cons_append, tokenizeFrom, haside.scan?_eq hc, hscan] at ht
      obtain ⟨us, hus, h₁⟩ := bind_eq_ok.1 ht
      rw [List.drop_append_of_le_length (scan?_le hscan)] at hus
      cases ts with
      | nil =>
        cases h₁
        exact absurd rfl (scan?_ne_done hscan)
      | cons t ts =>
        cases h₁
        obtain ⟨q', hq⟩ := ih hus
        rw [hq]
        exact ⟨q', rfl⟩

/-! ## Tokens in front of another text -/

/-- The lexeme at the head of a text is the one at the head of the longer text, also if it is white space. -/
theorem Aside.scan?_append {rest : List Char} (h : Aside rest) (hb : ∀ c ∈ rest.head?, isBlank c = false) (c : Char)
    (cs : List Char) : scan? c (cs ++ rest) = scan? c cs := by
  cases hc : isBlank c with
  | true => rw [scan?_of_blank hc, scan?_of_blank hc, runLength_append hb]
  | false => exact h.scan?_eq hc cs

/-- The tokens of a text and of another one behind it, which takes nothing from a lexeme of the first one and does not
start with white space. -/
theorem Aside.tokenizeFrom_append {rest : List Char} (h : Aside rest) (hb : ∀ c ∈ rest.head?, isBlank c = false)
    (position : Nat) (cs : List Char) : tokenizeFrom position (cs ++ rest) =
      tokenizeFrom position cs >>= fun ts => tokenizeFrom (position + cs.length) rest >>= fun us =>
        .ok (ts.dropLast ++ us) := by
  have hlength {c : Char} {cs : List Char} {l : Lexeme} {n position : Nat} (hscan : scan? c cs = some (l, n)) :
      position + n + 1 + (cs.drop n).length = position + (c :: cs).length := by
    have hle := scan?_le hscan
    rw [List.length_drop, List.length_cons]
    omega
  fun_induction tokenizeFrom position cs with
  | case1 position =>
    show tokenizeFrom position rest = tokenizeFrom position rest >>= fun us => .ok us
    cases tokenizeFrom position rest <;> rfl
  | case2 position c cs hscan =>
    rw [List.cons_append, tokenizeFrom, h.scan?_append hb, hscan]
    rfl
  | case3 position c cs n hscan ih =>
    rw [List.cons_append, tokenizeFrom, h.scan?_append hb, hscan]
    dsimp only
    rw [List.drop_append_of_le_length (scan?_le hscan), ih, hlength hscan]
  | case4 position c cs k n hscan ih =>
    rw [List.cons_append, tokenizeFrom, h.scan?_append hb, hscan]
    dsimp only
    rw [List.drop_append_of_le_length (scan?_le hscan), ih, hlength hscan]
    cases hts : tokenizeFrom (position + n + 1) (cs.drop n) with
    | error e => rfl
    | ok ts =>
      -- the tokens of the rest end with `done`, so that what is dropped is not the first token
      obtain ⟨us, p, rfl, -⟩ := tokenizeFrom_eq_ok hts
      cases tokenizeFrom (position + (c :: cs).length) rest with
      | error e => rfl
      | ok vs =>
        show Except.ok (_ :: (List.dropLast (us ++ [_]) ++ vs)) = Except.ok (List.dropLast (_ :: us ++ [_]) ++ vs)
        rw [List.dropLast_concat, List.dropLast_concat, List.cons_append]

/-! ## Tokens further on -/

/-- The token in a source that has `k` characters less in front of it. -/
def ExprToken.back (k : Nat) (t : ExprToken) : ExprToken :=
  ⟨t.kind, t.position - k⟩

/-- The token in a source that has `k` more characters in front of it. -/
def ExprToken.ahead (k : Nat) (t : ExprToken) : ExprToken :=
  ⟨t.kind, t.position + k⟩

theorem ExprToken.map_back_ahead (k : Nat) (ts : List ExprToken) : (ts.map (·.ahead k)).map (·.back k) = ts := by
  have hback : (ExprToken.back k ·) ∘ (ExprToken.ahead k ·) = id := by
    funext t
    simp [ahead, back]
  rw [List.map_map, hback, List.map_id]

theorem tokenizeFrom_ahead (k position : Nat) (cs : List Char) : tokenizeFrom (position + k) cs =
    ((tokenizeFrom position cs).map (List.map (·.ahead k))).mapError fun e => ⟨e.char, e.position + k⟩ := by
  fun_induction tokenizeFrom position cs with
  | case1 position => rw [tokenizeFrom]; rfl
  | case2 position c cs hscan => rw [tokenizeFrom, hscan]; rfl
  | case3 position c cs n hscan ih =>
    have hnext : position + k + n + 1 = position + n + 1 + k := by omega
    rw [tokenizeFrom, hscan]
    dsimp only
    rw [hnext, ih]
  | case4 position c cs l n hscan ih =>
    have hnext : position + k + n + 1 = position + n + 1 + k := by omega
    rw [tokenizeFrom, hscan]
    dsimp only
    rw [hnext, ih]
    cases tokenizeFrom (position + n + 1) (cs.drop n) <;> rfl

theorem tokenizeFrom_back {k position : Nat} {cs : List Char} {ts : List ExprToken}
    (h : tokenizeFrom (position + k) cs = .ok ts) : tokenizeFrom position cs = .ok (ts.map (·.back k)) := by
  rw [tokenizeFrom_ahead] at h
  cases hts : tokenizeFrom position cs with
  | error e => rw [hts] at h; cases h
  | ok us =>
    rw [hts] at h
    cases h
    rw [ExprToken.map_back_ahead]

/-! ## Expressions -/

/-- White space alone is no expression. -/
theorem Expr.blank_of_read {source : String} {e : Expr} (h : Expr.read source = .ok e) : blank source = false := by
  by_contra hblank
  rw [Bool.not_eq_false, blank, List.all_eq_true] at hblank
  have htokens := tokenizeFrom_blanks hblank 0 []
  rw [List.append_nil, tokenizeFrom] at htokens
  unfold Expr.read tokenize at h
  rw [htokens] at h
  cases h

/-- An expression is read without the white space around it as it is read with it. -/
theorem Expr.read_trim {source : String} {e : Expr} (h : Expr.read source = .ok e) :
    Expr.read (trim source) = .ok e := by
  obtain ⟨ts, p, hts, withArgs, hspells⟩ := Expr.exists_spelled_of_read h
  obtain ⟨lead, trail, hsource, hblank⟩ := exists_eq_trimBy isBlank source.toList
  have hlead : ∀ c ∈ lead, isBlank c = true := fun c hc => hblank c (List.mem_append_left _ hc)
  have htrail : ∀ c ∈ trail, isBlank c = true := fun c hc => hblank c (List.mem_append_right _ hc)
  unfold tokenize at hts
  rw [hsource, List.append_assoc, tokenizeFrom_blanks hlead] at hts
  obtain ⟨q, hq⟩ := tokenizeFrom_of_blanks htrail hts
  have hback := tokenizeFrom_back hq
  rw [List.map_append] at hback
  have htrim : tokenize (trim source) = .ok (ts.map (·.back lead.length) ++ [⟨.done, q - lead.length⟩]) := by
    rw [tokenize, trim, String.toList_ofList]
    exact hback
  exact (read_eq_ok_iff htrim).2 ⟨withArgs, hspells.map (f := (·.back lead.length)) fun _ => rfl⟩

end TemplateEngine

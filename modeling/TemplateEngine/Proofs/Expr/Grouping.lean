/-
Expressions in brackets. Nothing goes on with an expression at the bracket that closes it, as nothing does at the end of
a source; so what is read as an expression is read as the same one in round brackets, as the only item of a list in
square brackets, and as the key of an item in square brackets behind a name.
-/
import TemplateEngine.Proofs.Expr.Brackets
import TemplateEngine.Proofs.Expr.Printed

namespace TemplateEngine

open Text ExprGrammar

variable {source n : String} {ts : List ExprToken} {p : Nat} {e : Expr}

/-! ## Sources between brackets -/

/-- A closing bracket takes nothing from a lexeme in front of it, and gives no white space. -/
theorem aside_of_closing {s : Symbol} (h : closing (.symbol s) = true) :
    Aside s.chars ∧ ∀ c ∈ s.chars.head?, isBlank c = false := by
  have hparen : Aside [')'] := by constructor <;> simp <;> decide
  have hbracket : Aside [']'] := by constructor <;> simp <;> decide
  have hbrace : Aside ['}'] := by constructor <;> simp <;> decide
  cases s <;> first
  | exact absurd h (by decide)
  | exact ⟨hparen, by rintro c ⟨⟩; decide⟩
  | exact ⟨hbracket, by rintro c ⟨⟩; decide⟩
  | exact ⟨hbrace, by rintro c ⟨⟩; decide⟩

/-- In front of a closing bracket a source has its tokens, wherever it starts. -/
theorem Scans.before_closing {s : Symbol} (h : TemplateEngine.tokenize source = .ok (ts ++ [⟨.done, p⟩]))
    (hs : closing (.symbol s) = true) : Scans source.toList s.chars fun us => ∃ k, us = ts.map (·.ahead k) := by
  obtain ⟨haside, hblank⟩ := aside_of_closing hs
  intro position
  have hsource : tokenizeFrom position source.toList = .ok (ts.map (·.ahead position) ++ [⟨.done, p + position⟩]) := by
    have hahead := tokenizeFrom_ahead position 0 source.toList
    rw [Nat.zero_add] at hahead
    rw [TemplateEngine.tokenize] at h
    rw [hahead, h]
    exact congrArg Except.ok List.map_append
  refine ⟨_, ⟨position, rfl⟩, ?_⟩
  rw [haside.tokenizeFrom_append hblank, hsource, ok_bind, List.dropLast_concat]
  cases tokenizeFrom (position + source.toList.length) s.chars <;> rfl

/-- A source between two brackets has its tokens between those of the brackets. -/
theorem Scans.enclosed {o c : Symbol} (h : TemplateEngine.tokenize source = .ok (ts ++ [⟨.done, p⟩]))
    (ho : o.isMark = true) (hc : closing (.symbol c) = true) :
    Scans (o.text ++ source ++ c.text).toList [] fun us =>
      ∃ t u k, t.kind = .symbol o ∧ u.kind = .symbol c ∧ us = t :: (ts.map (ExprToken.ahead k) ++ [u]) := by
  have hmark : c.isMark = true := by cases c <;> first | rfl | exact absurd hc (by decide)
  have hsource : Scans source.toList (c.chars ++ []) fun us => ∃ k, us = ts.map (ExprToken.ahead k) := by
    rw [List.append_nil]
    exact .before_closing h hc
  rw [String.append_assoc, String.toList_append, String.toList_append, toList_text, toList_text]
  refine ((Scans.mark ho _).append (hsource.append (.mark hmark []))).mono ?_
  rintro _ ⟨_, _, ⟨t, ht, rfl⟩, ⟨_, _, ⟨k, rfl⟩, ⟨u, hu, rfl⟩, rfl⟩, rfl⟩
  exact ⟨t, u, k, ht, hu, rfl⟩

/-! ## Expressions between brackets -/

theorem read_of_scans {s : String} {P : List ExprToken → Prop} (h : Scans s.toList [] P)
    (hP : ∀ us, P us → Spells .greedy us e) : Expr.read s = .ok e := by
  obtain ⟨us, q, hus, htokens⟩ := h.tokenize
  exact (read_eq_ok_iff htokens).2 (hP us hus)

/-- An expression does not depend on what stands around it: it is read as itself between round brackets, as the one item
of a list between square brackets, and as the key of an item between square brackets behind a name. -/
theorem Expr.read_grouped (h : Expr.read source = .ok e) :
    Expr.read ("(" ++ source ++ ")") = .ok e ∧
    Expr.read ("[" ++ source ++ "]") = .ok (.list [e]) ∧
    ∀ n, isPlainName n = true → Expr.read (n ++ "[" ++ source ++ "]") = .ok (.item (.name n) e) := by
  obtain ⟨ts, p, hts, withArgs, hspells⟩ := Expr.exists_spelled_of_read h
  -- the tokens stand further on behind a bracket, and are derived there as they are without it
  have hahead (k : Nat) : Pipeline .greedy withArgs (ts.map (·.ahead k)) e := hspells.map (f := (·.ahead k)) fun _ => rfl
  have hparens := Scans.enclosed (o := .parenOpen) (c := .parenClose) hts rfl rfl
  have hbrackets := Scans.enclosed (o := .bracketOpen) (c := .bracketClose) hts rfl rfl
  refine ⟨read_of_scans hparens ?_, read_of_scans hbrackets ?_, fun n hn => ?_⟩
  · rintro _ ⟨t, u, k, ht, hu, rfl⟩
    exact ⟨false, .of_derives (.group ht (hahead k) hu) (by decide)⟩
  · rintro _ ⟨t, u, k, ht, hu, rfl⟩
    exact Elements.spells (.items (.one (hahead k))) ht hu
  · have hdetached : Detached ((Symbol.bracketOpen.text ++ source ++ Symbol.bracketClose.text).toList ++ []) := by
      rw [String.append_assoc, String.toList_append, List.append_assoc]
      exact detached_text (c := .bracketOpen) rfl nofun _
    have hitem := (Reads.name hn _ hdetached).append hbrackets
    rw [← String.toList_append, ← String.append_assoc, ← String.append_assoc] at hitem
    refine read_of_scans hitem ?_
    rintro _ ⟨_, _, ⟨t, ht, rfl⟩, ⟨o, c, k, ho, hc, rfl⟩, rfl⟩
    have hprimary : Derives .greedy .primary [t] (.name n) := .name ht
    exact ⟨false, .of_derives (.suffixes hprimary (.item ho (hahead k) hc .nil)) (by decide)⟩

theorem Expr.read_grouped_pipeline :
    Expr.read "a not in b | f: c, d" =
        .ok (.filter (.compare .notMem (.name "a") (.name "b")) "f" [.name "c", .name "d"]) ∧
      Expr.read ("[" ++ "a not in b | f: c, d" ++ "]") =
        .ok (.list [.filter (.compare .notMem (.name "a") (.name "b")) "f" [.name "c", .name "d"]]) ∧
      Expr.read ("x" ++ "[" ++ "a not in b | f: c, d" ++ "]") =
        .ok (.item (.name "x") (.filter (.compare .notMem (.name "a") (.name "b")) "f" [.name "c", .name "d"])) := by
  have hread : Expr.read "a not in b | f: c, d" =
      .ok (.filter (.compare .notMem (.name "a") (.name "b")) "f" [.name "c", .name "d"]) := by
    with_unfolding_all rfl
  obtain ⟨-, hlist, hitem⟩ := Expr.read_grouped hread
  exact ⟨hread, hlist, hitem "x" (by decide)⟩

end TemplateEngine

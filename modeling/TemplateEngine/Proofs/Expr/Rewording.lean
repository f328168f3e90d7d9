/-
Synonyms in sources. Where a source is read as an expression, its tokens are read as the same one with `and`, `or`, `not`
and `none` for any of the `&&`, `||`, `!` and `null` among them, and there is a source that has these tokens. The
converse fails for `not`, which together with `in` is an operator, as `!` is not.
-/
import TemplateEngine.Proofs.Expr.Layout
import TemplateEngine.Proofs.Expr.Printed

namespace TemplateEngine

open ExprGrammar

variable {source : String} {ts ts' : List ExprToken} {e : Expr}

theorem Keyword.describes (k : Keyword) : (Lexeme.token (.keyword k)).Describes k.word.toList := by
  obtain ⟨c, cs, hlist, hc, hcs, hkind⟩ := exists_chars_of_keyword k
  rw [hlist, ← hkind]
  exact .word hc hcs

/-- What a token is replaced by has a lexeme as well. -/
theorem ExprGrammar.Synonym.exists_lexeme {k k' : ExprTokenKind} (h : Synonym k k') {lexeme : List Char}
    (hl : (Lexeme.token k).Describes lexeme) : ∃ lexeme', (Lexeme.token k').Describes lexeme' := by
  cases h with
  | same => exact ⟨lexeme, hl⟩
  | and => exact ⟨_, Keyword.describes .and⟩
  | or => exact ⟨_, Keyword.describes .or⟩
  | not => exact ⟨_, Keyword.describes .not⟩
  | none => exact ⟨_, Keyword.describes .none⟩

theorem exists_cuttings {row : List Cutting}
    (hrow : ∀ cut ∈ row, (Lexeme.token cut.token.kind).Describes cut.lexeme) (h : Reworded (row.map (·.token)) ts) :
    ∃ row' : List Cutting, row'.map (·.token) = ts ∧
      ∀ cut ∈ row', (Lexeme.token cut.token.kind).Describes cut.lexeme := by
  induction row generalizing ts with
  | nil =>
    obtain rfl := List.forall₂_nil_left_iff.1 h
    exact ⟨[], rfl, List.forall_mem_nil _⟩
  | cons cut row ih =>
    obtain ⟨hcut, hrow⟩ := List.forall_mem_cons.1 hrow
    obtain ⟨t, us, ht, hus, rfl⟩ := List.forall₂_cons_left_iff.1 h
    obtain ⟨lexeme, hlexeme⟩ := ht.exists_lexeme hcut
    obtain ⟨row', rfl, hrow'⟩ := ih hrow hus
    exact ⟨⟨t, lexeme⟩ :: row', rfl, List.forall_mem_cons.2 ⟨hlexeme, hrow'⟩⟩

/-- Tokens that replace those of a source, up to the end of it, are those of another source, at other places. -/
theorem exists_source_of_reworded {p : Nat} (h : tokenize source = .ok (ts ++ [⟨.done, p⟩])) (hr : Reworded ts ts') :
    ∃ (source' : String) (us : List ExprToken) (q : Nat), tokenize source' = .ok (us ++ [⟨.done, q⟩]) ∧
      us.map (·.kind) = ts'.map (·.kind) := by
  obtain ⟨row, hlaid, hrow⟩ := exists_laid_of_tokenize h
  obtain ⟨rfl, -⟩ := List.append_inj' hrow rfl
  obtain ⟨row', rfl, hrow'⟩ := exists_cuttings hlaid.describes hr
  obtain ⟨row'', hlaid', hkinds⟩ := exists_laid_intercalate hrow' (List.forall_mem_nil _) 0
  rw [List.nil_append, ← String.toList_ofList (l := [' '].intercalate _)] at hlaid'
  refine ⟨_, _, _, hlaid'.tokenize_eq_ok, ?_⟩
  rw [List.map_map, List.map_map]
  exact hkinds

/-- Whatever is read is read as the same expression with synonyms for any of its tokens: the tokens are accepted in place
of those of the source, and so is each source that has them, of which there is one. -/
theorem Expr.read_reworded (h : Expr.read source = .ok e) (hts : tokenize source = .ok ts) (hr : Reworded ts ts') :
    Expr.ofTokens? ts' = .ok e ∧
    (∃ source' us, tokenize source' = .ok us ∧ us.map (·.kind) = ts'.map (·.kind)) ∧
    ∀ source' us, tokenize source' = .ok us → us.map (·.kind) = ts'.map (·.kind) → Expr.read source' = .ok e := by
  obtain ⟨us, p, hus, withArgs, hspells⟩ := Expr.exists_spelled_of_read h
  obtain rfl := Except.ok.inj (hts.symm.trans hus)
  obtain ⟨us', ⟨k, q⟩, _, rfl, hreworded, hdone, hnil⟩ := Reworded.split_cons hr
  obtain rfl := List.forall₂_nil_left_iff.1 hnil
  obtain rfl : k = .done := hdone.kind_eq rfl rfl
  have hspelled : Spells .greedy us' e := ⟨withArgs, hspells.reword hreworded⟩
  refine ⟨ofTokens?_of_spells hspelled, ?_, ?_⟩
  · obtain ⟨source', vs, r, hsource', hkinds⟩ := exists_source_of_reworded hus hreworded
    exact ⟨source', _, hsource', by rw [List.map_append, List.map_append, hkinds]; rfl⟩
  · intro source' vs hvs hkinds
    obtain ⟨ws, ⟨k, r⟩, _, rfl, hws, hdone', hnil⟩ := (Reworded.of_kinds hkinds.symm).split_cons
    obtain rfl := List.forall₂_nil_left_iff.1 hnil
    obtain rfl : k = .done := hdone'.kind_eq rfl rfl
    exact (read_eq_ok_iff hvs).2 ⟨withArgs, (hspells.reword hreworded).reword hws⟩

theorem Expr.read_reworded_some :
    Expr.read "!a && b || null" =
        .ok (.logical .or (.logical .and (.not (.name "a")) (.name "b")) (.literal .none)) ∧
      Expr.ofTokens? [⟨.keyword .not, 0⟩, ⟨.name "a", 4⟩, ⟨.keyword .and, 6⟩, ⟨.name "b", 10⟩, ⟨.symbol .bars, 12⟩,
          ⟨.keyword .none, 15⟩, ⟨.done, 19⟩] =
        .ok (.logical .or (.logical .and (.not (.name "a")) (.name "b")) (.literal .none)) := by
  have hread : Expr.read "!a && b || null" =
      .ok (.logical .or (.logical .and (.not (.name "a")) (.name "b")) (.literal .none)) := by
    with_unfolding_all rfl
  have htokens : tokenize "!a && b || null" = .ok [⟨.symbol .bang, 0⟩, ⟨.name "a", 1⟩, ⟨.symbol .ampersands, 3⟩,
      ⟨.name "b", 6⟩, ⟨.symbol .bars, 8⟩, ⟨.keyword .null, 11⟩, ⟨.done, 15⟩] := by
    with_unfolding_all rfl
  have hreworded : Reworded
      [⟨.symbol .bang, 0⟩, ⟨.name "a", 1⟩, ⟨.symbol .ampersands, 3⟩, ⟨.name "b", 6⟩, ⟨.symbol .bars, 8⟩,
        ⟨.keyword .null, 11⟩, ⟨.done, 15⟩]
      [⟨.keyword .not, 0⟩, ⟨.name "a", 4⟩, ⟨.keyword .and, 6⟩, ⟨.name "b", 10⟩, ⟨.symbol .bars, 12⟩,
        ⟨.keyword .none, 15⟩, ⟨.done, 19⟩] :=
    .cons .not <| .cons .same <| .cons .and <| .cons .same <| .cons .same <| .cons .none <| .cons .same .nil
  exact ⟨hread, (Expr.read_reworded hread htokens hreworded).1⟩

end TemplateEngine

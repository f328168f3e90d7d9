/-
The descent by the rules of the grammar, as it recurses. A rule asks tighter rules for the tokens that it has itself, and
any rule for fewer tokens: a further turn of a loop and what stands in brackets come behind tokens that were taken, since a
rule that gives an expression has taken a token at least, and never the end of the source.

So the equations of the rules, without a bound on nesting, have one solution, which is what expressions are read with.
-/
import TemplateEngine.Proofs.Expr.Bounds

namespace TemplateEngine.ExprGrammar

open ExprParser

/-! ## Rules -/

/-- What the descent reads: pipelines, and the expressions of a level. -/
inductive Rule where
  | pipeline
  | level (l : Level)
  deriving DecidableEq, Repr

/-- A parser for each rule. -/
abbrev Descent := Rule → ExprParser

/-- The parsers of what stands in brackets. -/
def Descent.nested (D : Descent) : Nested :=
  ⟨D (.level .conditional), D .pipeline⟩

namespace Rule

/-- The rules counted from the tightest one. -/
def rank : Rule → Nat
  | level l => l.rank
  | pipeline => 10

/-- What a rule does, with the parsers of all rules. -/
def body (D : Descent) (steps : Nat) : Rule → ExprParser
  | pipeline => ExprParser.pipeline (D (level .conditional)) steps
  | level l => l.body D.nested (fun m => D (level m)) steps

/-- What a rule may ask for: any rule on fewer tokens, or a tighter one on as many. -/
def Asks (r : Rule) (ts : List ExprToken) (r' : Rule) (us : List ExprToken) : Prop :=
  us.length < ts.length ∨ us.length = ts.length ∧ r'.rank < r.rank

end Rule

/-- The parsers that read expressions, with as many nesting levels as there are tokens. -/
def descent : Descent
  | .pipeline => fun ts => (nesting ts.length).element ts
  | .level l => fun ts => parserAt ts.length (ts.length + 1) l ts

variable {D : Descent} {r : Rule} {n p steps : Nat} {before ts us rest : List ExprToken} {t : ExprToken} {e : Expr}

/-! ## More nesting levels -/

theorem descent_pipeline (hn : ts.length ≤ n) : (nesting n).element ts = descent .pipeline ts :=
  (nesting_agree hn (Nat.le_refl _)).element ts (Nat.le_refl _)

theorem descent_level (hn : ts.length ≤ n) (l : Level) : parserAt n (n + 1) l ts = descent (.level l) ts :=
  parserAt_agree (nesting_agree hn (Nat.le_refl _)) hn (Nat.le_refl _) l ts (Nat.le_succ _)

theorem descent_conditional (hn : ts.length ≤ n) : (nesting n).key ts = descent (.level .conditional) ts :=
  (nesting_agree hn (Nat.le_succ _)).key ts (Nat.le_refl _)

/-! ## The equations of the rules -/

/-- What a rule gives is settled by what it asks for. -/
theorem Rule.body_eq_descent (hs : ts.length ≤ steps) (hD : ∀ r' us, r.Asks ts r' us → D r' us = descent r' us) :
    r.body D steps ts = descent r ts := by
  cases r with
  | pipeline =>
    have hvalue : Agree ts.length (D (.level .conditional)) (parserAt ts.length (ts.length + 1) .conditional) := by
      intro us hus
      rw [descent_level hus]
      exact hD _ _ ((Nat.lt_or_eq_of_le hus).imp_right fun h => ⟨h, by decide⟩)
    have hadvances := (parserAt_advances (Nat.le_refl ts.length) .conditional).mono (Nat.le_succ _)
    -- with one nesting level more the element parser is a pipeline above the levels
    rw [← descent_pipeline (Nat.le_succ ts.length), Nat.succ_eq_add_one, nesting_succ]
    exact pipeline_agree hvalue hadvances (Nat.le_refl _) hs (Nat.le_succ _)
  | level l =>
    rw [← descent_level (Nat.le_refl _), parserAt_eq_body]
    change l.body D.nested (fun m => D (.level m)) steps ts = _
    refine l.body_agree (fun k hk => ⟨⟨?_, ?_⟩, (nesting_takes _).mono (Nat.le_of_lt hk)⟩) (fun m hm => ⟨?_, ?_⟩) hs
      (Nat.le_succ _)
    · intro us hus
      rw [descent_conditional (by omega)]
      exact hD _ _ (.inl (by omega))
    · intro us hus
      rw [descent_pipeline (by omega)]
      exact hD _ _ (.inl (by omega))
    · intro us hus
      rw [descent_level hus]
      exact hD _ _ ((Nat.lt_or_eq_of_le hus).imp_right fun h => ⟨h, hm⟩)
    · exact (parserAt_advances (Nat.le_refl _) m).mono (Nat.le_succ _)

theorem descent_eq_body (hs : ts.length ≤ steps) : descent r ts = r.body descent steps ts :=
  (Rule.body_eq_descent hs fun _ _ _ => rfl).symm

/-- There is no other solution, by induction on the number of tokens and, for as many, on the rules from the tightest
one. -/
theorem eq_descent (hD : ∀ r ts, D r ts = r.body D ts.length ts) (r : Rule) (ts : List ExprToken) :
    D r ts = descent r ts := by
  rw [hD]
  exact Rule.body_eq_descent (Nat.le_refl _) fun r' us _ => eq_descent hD r' us
  termination_by (ts.length, r.rank)
  decreasing_by
    rename_i hasks
    rcases hasks with hlt | ⟨heq, hrank⟩
    · exact Prod.Lex.left _ _ hlt
    · rw [heq]
      exact Prod.Lex.right _ hrank

/-! ## What is taken -/

/-- A rule takes some tokens, and the last one of them is one that an expression ends with. -/
theorem exists_taken (h : descent r ts = .ok (e, rest)) : ∃ us, ts = us ++ rest ∧ us ≠ [] ∧ Finished us := by
  cases r with
  | pipeline =>
    obtain ⟨us, withArgs, rfl, hp, -⟩ := (nesting_takes _).element _ _ _ (Nat.le_refl _) h
    exact ⟨us, rfl, hp.ne_nil, hp.finished⟩
  | level l =>
    obtain ⟨us, rfl, hd⟩ := parserAt_takes (nesting_takes _) l _ _ _ (Nat.le_succ _) h
    exact ⟨us, rfl, hd.ne_nil, hd.finished⟩

/-- The end of the source stays. -/
theorem ne_nil_of_finished (ht : t.kind = .done) (h : (before ++ [t]).drop p = us ++ rest) (hne : us ≠ [])
    (hus : Finished us) : rest ≠ [] := by
  rintro rfl
  rw [List.append_nil] at h
  have hp : p ≤ before.length := by
    by_contra hp
    rw [List.drop_eq_nil_of_le (by simp; omega)] at h
    exact hne h.symm
  have hlast : t ∈ us.getLast? := by
    rw [← h, List.drop_append_of_le_length hp, List.getLast?_concat]
    rfl
  have hfinishes := hus t hlast
  rw [ht] at hfinishes
  cases hfinishes

/-- On a row of tokens that ends with the end of its source, each of the eleven rules moves forward from every position
where it gives an expression, by a token at least and no further than to the end, which it does not take. And the rules are
a recursion that ends: whatever is asked for on the way has fewer tokens, or as many and a tighter rule, the outcome is
settled by these, and their equations are met by one descent only. By it expressions are read, wherever no fewer nesting
levels than tokens are left. -/
theorem descent_moves_forward (ht : t.kind = .done) :
    (∀ r p e rest, descent r ((before ++ [t]).drop p) = .ok (e, rest) →
      ∃ p', p < p' ∧ p' ≤ before.length ∧ rest = (before ++ [t]).drop p') ∧
    (∀ (D : Descent) r ts steps, ts.length ≤ steps → (∀ r' us, r.Asks ts r' us → D r' us = descent r' us) →
      r.body D steps ts = descent r ts) ∧
    (∀ D : Descent, (∀ r ts, D r ts = r.body D ts.length ts) ↔ D = descent) ∧
    ∀ ts n, ts.length ≤ n → (nesting n).element ts = descent .pipeline ts ∧
      ∀ l, parserAt n (n + 1) l ts = descent (.level l) ts := by
  refine ⟨fun r p e rest h => ?_, fun D r ts steps => Rule.body_eq_descent, fun D => ⟨fun hD => ?_, ?_⟩,
    fun ts n hn => ⟨descent_pipeline hn, descent_level hn⟩⟩
  · obtain ⟨us, hts, hne, hus⟩ := exists_taken h
    have hrest := ne_nil_of_finished ht hts hne hus
    -- neither the taken tokens nor the others are none, which bounds the new position on both sides
    have hlength := congrArg List.length hts
    have hpos := List.length_pos_iff.2 hne
    have hposrest := List.length_pos_iff.2 hrest
    rw [List.length_drop, List.length_append, List.length_append, List.length_singleton] at hlength
    refine ⟨p + us.length, by omega, by omega, ?_⟩
    rw [← List.drop_drop, hts, List.drop_left]
  · funext r ts
    exact eq_descent hD r ts
  · rintro rfl r ts
    exact descent_eq_body (Nat.le_refl _)

/-- A sign and a name behind an opening bracket. -/
theorem descent_moves_forward_sign :
    let before : List ExprToken :=
      [⟨.symbol .parenOpen, 0⟩, ⟨.symbol .minus, 1⟩, ⟨.name "a", 2⟩, ⟨.symbol .parenClose, 3⟩]
    let source := before ++ [⟨.done, 4⟩]
    descent (.level .signed) (source.drop 1) = .ok (.unary .neg (.name "a"), source.drop 3) ∧
      ∃ p', 1 < p' ∧ p' ≤ before.length ∧ source.drop 3 = source.drop p' := by
  intro before source
  have h : descent (.level .signed) (source.drop 1) = .ok (.unary .neg (.name "a"), source.drop 3) := rfl
  exact ⟨h, (descent_moves_forward rfl).1 _ _ _ _ h⟩

end TemplateEngine.ExprGrammar

/-
Where an expression is malformed. A parser fails at a token that it has come to, with a problem that this token has, or at
a number with too many digits; it comes to the last token, the end of the source, but does not take it. So a source that
is no expression is reported at a token, at its end or at a character that starts no token, and only a source without
tokens at its start.
-/
import TemplateEngine.Proofs.Expr.Bounds
import TemplateEngine.Proofs.Expr.Layout

namespace TemplateEngine

/-- The tokens that have a problem. -/
def ExprProblem.At : ExprProblem → ExprTokenKind → Prop
  | unexpectedEnd, k => k = .done
  | unexpectedToken text, k => k ≠ .done ∧ text = k.text
  | filterName, k => ∀ n, k ≠ .name n
  | memberName, k => ∀ n, k ≠ .name n
  | elseBranch, k => k ≠ .keyword .else
  | indexClose, k => k ≠ .symbol .bracketClose
  | groupClose, k => k ≠ .symbol .parenClose
  | closing s, k => k ≠ .symbol s
  | entryColon, k => k ≠ .symbol .colon
  | unexpectedChar _, _ => False
  | empty, _ => False

namespace ExprGrammar

open ExprParser

variable {α β : Type} {l m : Level} {n steps : Nat} {all ts us rest : List ExprToken} {t : ExprToken} {s : Symbol}
  {p : ExprParser} {problem : ExprProblem} {nested : Nested}

/-- A failure at one of a row of tokens. -/
inductive Reported (all : List ExprToken) : ReadFailure → Prop
  | malformed {t : ExprToken} {problem : ExprProblem} (ht : t ∈ all) (h : problem.At t.kind) :
      Reported all (.malformed ⟨problem, t.position⟩)
  | tooManyDigits {t : ExprToken} {text : String} (ht : t ∈ all) (hk : t.kind = .number text)
      (hf : isFractional text = false) (hl : Number.digitLimit < text.length) : Reported all (.tooManyDigits text.length)

/-- What is left of a row of tokens: at most `n` of them, and the last one, which is the end of the source. -/
structure Left (all : List ExprToken) (n : Nat) (ts : List ExprToken) : Prop where
  suffix : ts <:+ all
  length_le : ts.length ≤ n
  ends : ∃ t ∈ ts.getLast?, t.kind = .done

/-- What a parser gives leaves the end of the source at least, or it is a failure at one of the tokens. -/
def Leaves (all : List ExprToken) (n : Nat) : Except ReadFailure (α × List ExprToken) → Prop
  | .ok (_, rest) => Left all n rest
  | .error failure => Reported all failure

/-- A parser of what is left. -/
def Reports (all : List ExprToken) (n : Nat) (p : List ExprToken → Except ReadFailure (α × List ExprToken)) : Prop :=
  ∀ ts, Left all n ts → Leaves all n (p ts)

/-! ## Taking one token -/

namespace Left

theorem ne_nil (h : Left all n ts) : ts ≠ [] := by
  rintro rfl
  obtain ⟨t, ht, -⟩ := h.ends
  cases ht

theorem mono (h : Left all n ts) : Left all (n + 1) ts :=
  ⟨h.suffix, Nat.le_succ_of_le h.length_le, h.ends⟩

/-- Behind a token that is not the end one less is left. -/
theorem inside (h : Left all (n + 1) (t :: rest)) (ht : t.kind ≠ .done) : Left all n rest := by
  refine ⟨(List.suffix_cons t rest).trans h.suffix, Nat.le_of_succ_le_succ h.length_le, ?_⟩
  obtain ⟨u, hu, hdone⟩ := h.ends
  cases rest with
  | nil =>
    -- then the token itself is the last one
    cases hu
    exact absurd hdone ht
  | cons v vs => exact ⟨u, by rwa [List.getLast?_cons_cons] at hu, hdone⟩

theorem tail (h : Left all n (t :: rest)) (ht : t.kind ≠ .done) : Left all n rest :=
  h.mono.inside ht

theorem keyword {k : Keyword} {q : Nat} (h : Left all n (⟨.keyword k, q⟩ :: rest)) : Left all n rest :=
  h.tail fun hdone => by cases hdone

theorem symbol {q : Nat} (h : Left all n (⟨.symbol s, q⟩ :: rest)) : Left all n rest :=
  h.tail fun hdone => by cases hdone

theorem table {join : Expr → Expr → Expr} (h : Left all n ts) (ht : l.table ts = some (join, rest)) :
    Left all n rest := by
  obtain ⟨ops, rfl, hop⟩ := Operator.of_table ht
  obtain ⟨⟨k, q⟩, rfl⟩ | ⟨⟨k, q⟩, ⟨k', q'⟩, rfl⟩ := hop.tokens
  · exact h.tail (by rintro ⟨⟩; cases hop)
  · exact (h.tail (by rintro ⟨⟩; cases hop)).tail (by rintro ⟨⟩; cases hop)

theorem front {wrap : Expr → Expr} (h : Left all n ts) (ht : l.front? ts = some (wrap, rest)) : Left all n rest := by
  obtain ⟨⟨k, q⟩, rfl, hfront⟩ := Front.of_front? ht
  have hfront := hfront (.name "")
  exact h.tail (by rintro ⟨⟩; cases hfront)

/-- A failure at the next token. -/
theorem failAt (h : Left all n ts) (hat : ∀ k q us, ts = ⟨k, q⟩ :: us → problem.At k) :
    Leaves all n (ExprParser.failAt ts problem : Except ReadFailure (α × List ExprToken)) := by
  obtain ⟨⟨k, q⟩, us, rfl⟩ := List.exists_cons_of_ne_nil h.ne_nil
  exact .malformed (t := ⟨k, q⟩) (h.suffix.subset List.mem_cons_self) (hat k q us rfl)

end Left

namespace Leaves

theorem mono {x : Except ReadFailure (α × List ExprToken)} (h : Leaves all n x) : Leaves all (n + 1) x := by
  cases x with
  | ok r => exact Left.mono h
  | error failure => exact h

theorem bind {x : Except ReadFailure (α × List ExprToken)}
    {f : α × List ExprToken → Except ReadFailure (β × List ExprToken)} (hx : Leaves all n x)
    (hf : ∀ a rest, Left all n rest → Leaves all n (f (a, rest))) : Leaves all n (x >>= f) := by
  cases x with
  | ok r => exact hf r.1 r.2 hx
  | error failure => exact hx

theorem expect_bind {f : List ExprToken → Except ReadFailure (β × List ExprToken)} (h : Left all n ts)
    (hat : ∀ k, k ≠ .symbol s → problem.At k) (hf : ∀ rest, Left all n rest → Leaves all n (f rest)) :
    Leaves all n (expect s problem ts >>= f) := by
  obtain ⟨⟨k, q⟩, us, rfl⟩ := List.exists_cons_of_ne_nil h.ne_nil
  by_cases hk : k = .symbol s
  · subst hk
    rw [expect_eq_ok.2 ⟨_, rfl, rfl⟩]
    exact hf us h.symbol
  · have hfail : expect s problem (⟨k, q⟩ :: us) = ExprParser.failAt (⟨k, q⟩ :: us) problem := by
      unfold expect
      split
      · rename_i hst
        cases hst
        exact if_neg fun hs => hk (congrArg ExprTokenKind.symbol hs)
      · rfl
    rw [hfail]
    exact h.failAt (by rintro k q us ⟨⟩; exact hat _ hk)

theorem expectName (h : Left all n ts) (hat : ∀ k, (∀ name, k ≠ .name name) → problem.At k) :
    Leaves all n (ExprParser.expectName problem ts) := by
  unfold ExprParser.expectName
  split
  · exact h.tail nofun
  · rename_i hno
    refine h.failAt fun k q us hts => hat k ?_
    rintro name rfl
    exact hno _ _ _ hts

end Leaves

/-! ## Loops over operators, filters and arguments -/

section

variable (hp : Reports all n p)
include hp

theorem chainRest_reports (left : Expr) : Reports all n (chainRest l.table p steps left) := by
  induction steps generalizing left with
  | zero => exact fun ts h => h
  | succ steps ih =>
    intro ts h
    unfold chainRest
    split
    · exact h
    · rename_i join rest ht
      exact (hp rest (h.table ht)).bind fun right rest h => ih _ rest h

theorem chain_reports (steps : Nat) : Reports all n (chain l.table p steps) :=
  fun ts h => (hp ts h).bind fun left rest h => chainRest_reports hp left rest h

theorem fronted_reports (steps : Nat) : Reports all n (fronted l.front? p steps) := by
  induction steps with
  | zero => exact hp
  | succ steps ih =>
    intro ts h
    unfold fronted
    split
    · exact hp ts h
    · rename_i wrap rest ht
      exact (ih rest (h.front ht)).bind fun e rest h => h

theorem conditional_reports (steps : Nat) : Reports all n (conditional p steps) := by
  induction steps with
  | zero => exact hp
  | succ steps ih =>
    intro ts h
    unfold conditional
    refine (hp ts h).bind fun body rest h => ?_
    dsimp only
    split
    · refine (hp _ h.keyword).bind fun condition rest h => ?_
      dsimp only
      split
      · exact (ih _ h.keyword).bind fun orElse rest h => h
      · rename_i hno
        refine h.failAt ?_
        rintro k q us hts rfl
        exact hno _ _ hts
    · exact h

theorem commaRest_reports : Reports all n (commaRest p steps) := by
  induction steps with
  | zero => exact fun ts h => h
  | succ steps ih =>
    intro ts h
    unfold commaRest
    split
    · rename_i hst
      cases hst
      exact (hp _ h.symbol).bind fun e rest h => (ih rest h).bind fun es rest h => h
    · exact h

theorem filterArguments_reports (steps : Nat) : Reports all n (filterArguments p steps) := by
  intro ts h
  unfold filterArguments
  split
  · exact (hp _ h.symbol).bind fun e rest h => (commaRest_reports hp rest h).bind fun es rest h => h
  · exact h

theorem pipelineRest_reports (value : Expr) : Reports all n (pipelineRest p steps value) := by
  induction steps generalizing value with
  | zero => exact fun ts h => h
  | succ steps ih =>
    intro ts h
    unfold pipelineRest
    split
    · rename_i hst
      cases hst
      refine (Leaves.expectName h.symbol ?_).bind fun name rest h => ?_
      · exact fun k hk => hk
      · exact (filterArguments_reports hp steps rest h).bind fun args rest h => ih _ rest h
    · exact h

theorem pipeline_reports (steps : Nat) : Reports all n (pipeline p steps) :=
  fun ts h => (hp ts h).bind fun value rest h => pipelineRest_reports hp value rest h

end

/-! ## Brackets -/

/-- The parsers of what stands in brackets fail at one of the tokens. -/
structure NestedReports (all : List ExprToken) (n : Nat) (nested : Nested) : Prop where
  key : Reports all n nested.key
  element : Reports all n nested.element

theorem Left.of_head (h : Left all n ts) (hk : ts.head?.map (·.kind) = some (.symbol s)) : Left all n ts.tail := by
  obtain ⟨⟨k, q⟩, us, rfl, rfl⟩ := head?_kind_eq.1 hk
  exact h.symbol

section

variable (hN : NestedReports all n nested)
include hN

theorem elementsRest_reports (close : Symbol) : Reports all n (elementsRest nested.element close steps) := by
  induction steps with
  | zero => exact fun ts h => h
  | succ steps ih =>
    intro ts h
    unfold elementsRest
    split
    · rename_i hst
      cases hst
      have h := h.symbol
      split
      · exact h
      · exact (hN.element _ h).bind fun e rest h => (ih rest h).bind fun es rest h => h
    · exact h

theorem elements_reports (close : Symbol) (steps : Nat) : Reports all n (elements nested.element close steps) := by
  intro ts h
  unfold elements
  split
  · rename_i hk
    exact h.of_head hk
  · refine (hN.element ts h).bind fun e rest h => (elementsRest_reports hN close rest h).bind fun es rest h => ?_
    exact Leaves.expect_bind h (fun k hk => hk) fun rest h => h

theorem entry_reports : Reports all n (entry nested) := by
  intro ts h
  refine (hN.key ts h).bind fun key rest h => Leaves.expect_bind h (fun k hk => hk) fun rest h => ?_
  exact (hN.element rest h).bind fun value rest h => h

theorem entriesRest_reports : Reports all n (entriesRest nested steps) := by
  induction steps with
  | zero => exact fun ts h => h
  | succ steps ih =>
    intro ts h
    unfold entriesRest
    split
    · rename_i hst
      cases hst
      have h := h.symbol
      split
      · exact h
      · exact (entry_reports hN _ h).bind fun e rest h => (ih rest h).bind fun es rest h => h
    · exact h

theorem entries_reports (steps : Nat) : Reports all n (entries nested steps) := by
  intro ts h
  unfold entries
  split
  · rename_i hk
    exact h.of_head hk
  · refine (entry_reports hN ts h).bind fun e rest h => (entriesRest_reports hN rest h).bind fun es rest h => ?_
    exact Leaves.expect_bind h (fun k hk => hk) fun rest h => h

/-! ## Constants, names and what follows them -/

theorem primary_reports (steps : Nat) : Reports all (n + 1) (primary nested steps) := by
  intro ts h
  unfold primary
  split
  · rename_i text q rest
    cases hv : numberLiteral text with
    | ok v => exact h.tail nofun
    | error failure =>
      obtain ⟨hf, hl, rfl⟩ := numberLiteral_eq_error hv
      exact .tooManyDigits (h.suffix.subset List.mem_cons_self) rfl hf hl
  · exact h.tail nofun
  · exact h.tail nofun
  · split
    · exact h.tail nofun
    · refine h.failAt ?_
      rintro k q us ⟨⟩
      exact ⟨nofun, rfl⟩
  · refine (hN.element _ (h.inside nofun)).mono.bind fun e rest h => ?_
    exact Leaves.expect_bind h (fun k hk => hk) fun rest h => h
  · exact (elements_reports hN _ _ _ (h.inside nofun)).mono.bind fun es rest h => h
  · exact (entries_reports hN _ _ (h.inside nofun)).mono.bind fun es rest h => h
  · refine h.failAt ?_
    rintro k q us ⟨⟩
    exact ⟨nofun, rfl⟩
  · refine h.failAt ?_
    rintro k q us ⟨⟩
    rfl
  · exact absurd rfl h.ne_nil

theorem postfixRest_reports (target : Expr) : Reports all (n + 1) (postfixRest nested steps target) := by
  induction steps generalizing target with
  | zero => exact fun ts h => h
  | succ steps ih =>
    intro ts h
    unfold postfixRest
    split
    · rename_i hst
      cases hst
      refine (Leaves.expectName h.symbol ?_).bind fun name rest h => ih _ rest h
      exact fun k hk => hk
    · rename_i hst
      cases hst
      refine (hN.element _ (h.inside nofun)).mono.bind fun key rest h => ?_
      exact Leaves.expect_bind h (fun k hk => hk) fun rest h => ih _ rest h
    · rename_i hst
      cases hst
      exact (elements_reports hN _ _ _ (h.inside nofun)).mono.bind fun args rest h => ih _ rest h
    · exact h

theorem postfixed_reports (steps : Nat) : Reports all (n + 1) (postfixed nested steps) :=
  fun ts h => (primary_reports hN steps ts h).bind fun target rest h => postfixRest_reports hN target rest h

theorem disjunction_reports (steps : Nat) : Reports all (n + 1) (disjunction nested steps) := by
  have hunary := fronted_reports (l := .signed) (postfixed_reports hN steps) steps
  have hproduct := chain_reports (l := .product) hunary steps
  have hsum := chain_reports (l := .sum) hproduct steps
  have hcomparison := chain_reports (l := .comparison) hsum steps
  have hnegation := fronted_reports (l := .negation) hcomparison steps
  exact chain_reports (l := .disjunction) (chain_reports (l := .conjunction) hnegation steps) steps

end

/-- By induction on the depth of brackets: behind an opening bracket one token less is left. -/
theorem nesting_reports : ∀ n, NestedReports all n (nesting n)
  | 0 => by
    -- the end of the source is always left, so that parsers without a level are never asked
    have hnone {ts : List ExprToken} (h : Left all 0 ts) : False :=
      h.ne_nil (List.eq_nil_of_length_eq_zero (Nat.le_zero.1 h.length_le))
    exact ⟨fun ts h => (hnone h).elim, fun ts h => (hnone h).elim⟩
  | n + 1 => by
    have hkey := conditional_reports (disjunction_reports (nesting_reports n) (n + 1)) (n + 1)
    exact ⟨hkey, pipeline_reports hkey (n + 1)⟩

/-- Tokens that do not start with the end are read, or a failure is reported at one of them. -/
theorem ofTokens?_reported (h : Left ts ts.length ts) (hstart : ∀ q us, ts ≠ ⟨.done, q⟩ :: us) {failure : ReadFailure}
    (hf : Expr.ofTokens? ts = .error failure) : Reported ts failure := by
  unfold Expr.ofTokens? at hf
  split at hf
  · exact absurd rfl (hstart _ _)
  · have hread : Leaves ts ts.length ((nesting ts.length).element ts) := (nesting_reports ts.length).element ts h
    cases hr : (nesting ts.length).element ts with
    | error failure' =>
      rw [hr] at hf hread
      cases hf
      exact hread
    | ok r =>
      obtain ⟨e, rest⟩ := r
      rw [hr] at hf hread
      have hrest : Left ts ts.length rest := hread
      rw [ok_bind] at hf
      dsimp only at hf
      split at hf
      · cases hf
      · rename_i t us hno
        cases hf
        exact .malformed (hrest.suffix.subset List.mem_cons_self) ⟨fun hdone => hno _ (by rw [← hdone]), rfl⟩
      · cases hf

end ExprGrammar

/-! ## Sources -/

open Text ExprGrammar

/-- The place of what is wrong with a source: the start of a token, the end behind all tokens, or a character that starts
no token; it is the start of a source without tokens. -/
inductive Located (source : String) : ExprError → Prop
  | token {row : List Cutting} {cut : Cutting} {problem : ExprProblem} (h : Laid 0 source.toList row [])
      (hcut : cut ∈ row) (hat : problem.At cut.token.kind) : Located source ⟨problem, cut.token.position⟩
  | finish {row : List Cutting} {problem : ExprProblem} (h : Laid 0 source.toList row []) (hat : problem.At .done) :
      Located source ⟨problem, source.length⟩
  | char {row : List Cutting} {c : Char} {rest : List Char} {position : Nat} (h : Laid 0 source.toList row (c :: rest))
      (hleft : NoLexeme (c :: rest)) (hposition : position + (c :: rest).length = source.length) :
      Located source ⟨.unexpectedChar c, position⟩
  | blank (h : ∀ c ∈ source.toList, isBlank c = true) : Located source ⟨.empty, 0⟩

theorem Located.position_le {source : String} {error : ExprError} (h : Located source error) :
    error.position ≤ source.length := by
  cases h with
  | token h hcut =>
    have hend := h.end_le _ hcut
    rw [Nat.zero_add, String.length_toList] at hend
    dsimp only
    omega
  | finish => exact Nat.le_refl _
  | char h hleft hposition => exact Nat.le_of_add_right_le (Nat.le_of_eq hposition)
  | blank => exact Nat.zero_le _

section

variable {source : String} {row : List Cutting} {t : ExprToken} {failure : ReadFailure}

theorem Laid.mem_tokens (ht : t ∈ row.map (·.token) ++ [⟨.done, source.length⟩]) :
    (∃ cut ∈ row, cut.token = t) ∨ t = ⟨.done, source.length⟩ :=
  (List.mem_append.1 ht).imp List.mem_map.1 List.mem_singleton.1

/-- The end of a source is the only token without a lexeme. -/
theorem Laid.kind_ne_done (h : Laid 0 source.toList row []) {cut : Cutting} (hcut : cut ∈ row) :
    cut.token.kind ≠ .done := by
  intro hdone
  have hdescribes := h.describes cut hcut
  have hwritten := writtenAs_of_describes hdescribes
  rw [hdone] at hwritten
  exact hdescribes.ne_nil hwritten

theorem Laid.blank_of_nil {cs : List Char} (h : Laid 0 cs [] []) : ∀ c ∈ cs, isBlank c = true := by
  cases h with
  | nil hgap => rwa [List.append_nil]

/-- Reading the tokens of a source that has some fails at one of them, or at its end. -/
theorem Laid.reported (h : Laid 0 source.toList row []) (hne : row ≠ [])
    (hf : Expr.ofTokens? (row.map (·.token) ++ [⟨.done, source.length⟩]) = .error failure) :
    Reported (row.map (·.token) ++ [⟨.done, source.length⟩]) failure := by
  refine ofTokens?_reported ⟨List.suffix_rfl, Nat.le_refl _, _, List.getLast?_concat, rfl⟩ ?_ hf
  obtain ⟨cut, row, rfl⟩ := List.exists_cons_of_ne_nil hne
  rintro q us hts
  rw [List.map_cons, List.cons_append] at hts
  exact h.kind_ne_done List.mem_cons_self (congrArg (·.kind) (List.cons.inj hts).1)

theorem Laid.located {error : ExprError} (h : Laid 0 source.toList row [])
    (hr : Reported (row.map (·.token) ++ [⟨.done, source.length⟩]) (.malformed error)) : Located source error := by
  cases hr with
  | malformed ht hat =>
    obtain ⟨cut, hcut, rfl⟩ | rfl := Laid.mem_tokens ht
    · exact .token h hcut hat
    · exact .finish h hat

end

/-- Whatever the source is, reading it gives an expression, an error that is located in the source, or the failure of an
integer with too many digits that is one of its tokens; and it ends of itself, as more nesting levels and more steps than
there are tokens make no difference. -/
theorem Expr.read_located (source : String) :
    ((∃ e, Expr.read source = .ok e) ∨
      (∃ error, Expr.read source = .error (.malformed error) ∧ error.position ≤ source.length ∧ Located source error) ∨
      ∃ row cut text, Laid 0 source.toList row [] ∧ cut ∈ row ∧ cut.token.kind = .number text ∧
        isFractional text = false ∧ Number.digitLimit < text.length ∧
        Expr.read source = .error (.tooManyDigits text.length)) ∧
    ∀ ts n, tokenize source = .ok ts → ts.length ≤ n →
      (ExprParser.nesting n).element ts = (ExprParser.nesting ts.length).element ts := by
  refine ⟨?_, fun ts n _ hn => (nesting_agree hn (Nat.le_refl _)).element ts (Nat.le_refl _)⟩
  obtain ⟨row, hlaid, hts⟩ | ⟨row, c, rest, position, hlaid, hleft, hposition, hts⟩ := tokenize_cases source
  · have hread : Expr.read source = Expr.ofTokens? (row.map (·.token) ++ [⟨.done, source.length⟩]) := by
      rw [Expr.read, hts]
    by_cases hrow : row = []
    · -- without tokens nothing is read, and the start is reported
      subst hrow
      have hlocated : Located source ⟨.empty, 0⟩ := .blank (Laid.blank_of_nil hlaid)
      exact .inr (.inl ⟨_, hread, hlocated.position_le, hlocated⟩)
    · cases hf : Expr.read source with
      | ok e => exact .inl ⟨e, rfl⟩
      | error failure =>
        have hreported := hlaid.reported hrow (hread.symm.trans hf)
        cases failure with
        | malformed error =>
          have hlocated := hlaid.located hreported
          exact .inr (.inl ⟨error, rfl, hlocated.position_le, hlocated⟩)
        | tooManyDigits count =>
          cases hreported with
          | tooManyDigits ht hk hfractional hl =>
            obtain ⟨cut, hcut, rfl⟩ | rfl := Laid.mem_tokens ht
            · exact .inr (.inr ⟨row, cut, _, hlaid, hcut, hk, hfractional, hl, rfl⟩)
            · -- the end of the source is no number
              cases hk
  · have hlocated : Located source ⟨.unexpectedChar c, position⟩ := .char hlaid hleft hposition
    exact .inr (.inl ⟨_, by rw [Expr.read, hts], hlocated.position_le, hlocated⟩)

theorem Expr.read_located_unclosed :
    Expr.read "f(1" = .error (.malformed ⟨.closing .parenClose, 3⟩) ∧
      (ExprParser.nesting 9).element [⟨.name "f", 0⟩, ⟨.symbol .parenOpen, 1⟩, ⟨.number "1", 2⟩, ⟨.done, 3⟩] =
        (ExprParser.nesting 4).element [⟨.name "f", 0⟩, ⟨.symbol .parenOpen, 1⟩, ⟨.number "1", 2⟩, ⟨.done, 3⟩] := by
  have htokens : tokenize "f(1" = .ok [⟨.name "f", 0⟩, ⟨.symbol .parenOpen, 1⟩, ⟨.number "1", 2⟩, ⟨.done, 3⟩] := by
    with_unfolding_all rfl
  refine ⟨?_, (Expr.read_located "f(1").2 _ 9 htokens (by decide)⟩
  with_unfolding_all rfl

/-- White space alone is reported at its start, where neither a token nor the end is. -/
theorem Expr.read_located_blank : ∃ error ts, Expr.read " " = .error (.malformed error) ∧ tokenize " " = .ok ts ∧
    (∀ t ∈ ts, t.position ≠ error.position) ∧ error.position ≠ " ".length := by
  refine ⟨⟨.empty, 0⟩, [⟨.done, 1⟩], ?_, ?_, by decide, by decide⟩
  all_goals with_unfolding_all rfl

end TemplateEngine

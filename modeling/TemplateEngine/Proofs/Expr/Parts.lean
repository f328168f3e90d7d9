/-
The parts of the parser in terms of the grammar: a table of operators reads the operators of its level,
the constants are those of the grammar, and the parser is a row of levels each of which is built on the
one below it.
-/
import Mathlib.Data.List.Basic
import TemplateEngine.Proofs.Expr.Grammar
import TemplateEngine.Proofs.Result

namespace TemplateEngine.ExprGrammar

open ExprParser

variable {l m : Level} {ts us rest : List ExprToken}

/-! ## Single tokens -/

theorem expect_eq_ok {s : Symbol} {problem : ExprProblem} :
    expect s problem ts = .ok rest ↔ ∃ t, t.kind = .symbol s ∧ ts = t :: rest := by
  constructor
  · intro h
    unfold expect at h
    split at h
    · split at h
      · rename_i hs
        cases h
        exact ⟨_, congrArg ExprTokenKind.symbol hs, rfl⟩
      · cases h
    · cases h
  · rintro ⟨⟨k, p⟩, rfl, rfl⟩
    exact if_pos rfl

theorem expectName_eq_ok {problem : ExprProblem} {n : String} :
    expectName problem ts = .ok (n, rest) ↔ ∃ t, t.kind = .name n ∧ ts = t :: rest := by
  constructor
  · intro h
    unfold expectName at h
    split at h
    · cases h
      exact ⟨_, rfl, rfl⟩
    · cases h
  · rintro ⟨⟨k, p⟩, rfl, rfl⟩
    rfl

theorem head?_kind_eq {k : ExprTokenKind} :
    ts.head?.map (·.kind) = some k ↔ ∃ t us, t.kind = k ∧ ts = t :: us := by
  cases ts with
  | nil => simp
  | cons t us => simp

/-! ## Constants -/

theorem constant?_eq_some {k : Keyword} {v : Literal} : constant? k = some v ↔ Constant k v := by
  constructor
  · intro h
    unfold constant? at h
    split at h
    · cases h; exact .true
    · cases h; exact .false
    · cases h; exact .null
    · cases h; exact .none
    · cases h
  · intro h
    cases h <;> rfl

theorem numberLiteral_eq_ok {text : String} {v : Literal} :
    numberLiteral text = .ok v ↔ Readable text ∧ v = numberValue text := by
  unfold numberLiteral numberValue Readable
  show (if isFractional text = true then _ else _) = _ ↔ _
  cases hf : isFractional text with
  | true => simp [eq_comm]
  | false =>
    rw [if_neg Bool.false_ne_true]
    by_cases hl : Number.digitLimit < text.toList.length
    · simp only [if_pos hl, reduceCtorEq, false_or, false_iff, not_and]
      omega
    · simp only [if_neg hl, Except.ok.injEq, reduceCtorEq, false_or, ite_false, eq_comm (b := v)]
      exact ⟨fun h => ⟨Nat.le_of_not_lt hl, h⟩, fun h => h.2⟩

theorem numberLiteral_eq_error {text : String} {failure : ReadFailure} (h : numberLiteral text = .error failure) :
    isFractional text = false ∧ Number.digitLimit < text.length ∧ failure = .tooManyDigits text.length := by
  unfold numberLiteral at h
  dsimp only at h
  split at h
  · cases h
  · rename_i hf
    split at h
    · rename_i hl
      cases h
      rw [String.length_toList] at hl ⊢
      exact ⟨Bool.eq_false_iff.2 hf, hl, rfl⟩
    · cases h

/-! ## Operators -/

/-- The table of the operators of a level. -/
def Level.table : Level → OperatorTable
  | .disjunction => orTable
  | .conjunction => andTable
  | .comparison => comparisonTable
  | .sum => additiveTable
  | .product => termTable
  | _ => fun _ => none

theorem Operator.of_table {join : Expr → Expr → Expr} (h : l.table ts = some (join, rest)) :
    ∃ ops, ts = ops ++ rest ∧ Operator l (ops.map (·.kind)) join := by
  cases l with
  | disjunction =>
    change orTable ts = _ at h
    unfold orTable at h
    split at h
    · cases h; exact ⟨[_], rfl, .or⟩
    · cases h; exact ⟨[_], rfl, .bars⟩
    · cases h
  | conjunction =>
    change andTable ts = _ at h
    unfold andTable at h
    split at h
    · cases h; exact ⟨[_], rfl, .and⟩
    · cases h; exact ⟨[_], rfl, .ampersands⟩
    · cases h
  | comparison =>
    change comparisonTable ts = _ at h
    unfold comparisonTable at h
    split at h
    · cases h; exact ⟨[_], rfl, .eq⟩
    · cases h; exact ⟨[_], rfl, .ne⟩
    · cases h; exact ⟨[_], rfl, .lt⟩
    · cases h; exact ⟨[_], rfl, .le⟩
    · cases h; exact ⟨[_], rfl, .gt⟩
    · cases h; exact ⟨[_], rfl, .ge⟩
    · cases h; exact ⟨[_], rfl, .mem⟩
    · cases h; exact ⟨[_, _], rfl, .notMem⟩
    · cases h
  | sum =>
    change additiveTable ts = _ at h
    unfold additiveTable at h
    split at h
    · cases h; exact ⟨[_], rfl, .add⟩
    · cases h; exact ⟨[_], rfl, .sub⟩
    · cases h; exact ⟨[_], rfl, .concat⟩
    · cases h
  | product =>
    change termTable ts = _ at h
    unfold termTable at h
    split at h
    · cases h; exact ⟨[_], rfl, .mul⟩
    · cases h; exact ⟨[_], rfl, .div⟩
    · cases h; exact ⟨[_], rfl, .floorDiv⟩
    · cases h; exact ⟨[_], rfl, .mod⟩
    · cases h
  | _ => cases h

theorem Operator.length_kinds {kinds : List ExprTokenKind} {join : Expr → Expr → Expr} (h : Operator l kinds join) :
    kinds.length = 1 ∨ kinds.length = 2 := by
  cases h <;> simp

/-- An operator is one token, but for `not in`. -/
theorem Operator.tokens {ops : List ExprToken} {join : Expr → Expr → Expr} (h : Operator l (ops.map (·.kind)) join) :
    (∃ t, ops = [t]) ∨ ∃ t u, ops = [t, u] := by
  have hn := h.length_kinds
  rw [List.length_map] at hn
  exact hn.imp List.length_eq_one_iff.1 List.length_eq_two.1

theorem Operator.table {ops : List ExprToken} {join : Expr → Expr → Expr} (h : Operator l (ops.map (·.kind)) join)
    (rest : List ExprToken) : l.table (ops ++ rest) = some (join, rest) := by
  obtain ⟨⟨k, p⟩, rfl⟩ | ⟨⟨k, p⟩, ⟨k', p'⟩, rfl⟩ := h.tokens
  · cases h <;> rfl
  · cases h
    rfl

/-- What follows an operator of a level that stands in front. -/
def Level.front? : Level → List ExprToken → Option ((Expr → Expr) × List ExprToken)
  | .negation => negation?
  | .signed => sign?
  | _ => fun _ => none

theorem Front.of_front? {wrap : Expr → Expr} (h : l.front? ts = some (wrap, rest)) :
    ∃ t, ts = t :: rest ∧ ∀ e, Front l t.kind e (wrap e) := by
  cases l with
  | negation =>
    change negation? ts = _ at h
    unfold negation? at h
    split at h
    · cases h; exact ⟨_, rfl, fun _ => .not⟩
    · cases h; exact ⟨_, rfl, fun _ => .bang⟩
    · cases h
  | signed =>
    change sign? ts = _ at h
    unfold sign? at h
    split at h
    · cases h; exact ⟨_, rfl, fun _ => .minus⟩
    · cases h; exact ⟨_, rfl, fun _ => .plus⟩
    · cases h
  | _ => cases h

theorem Front.front? {t : ExprToken} {e e' : Expr} (h : Front l t.kind e e') (rest : List ExprToken) :
    ∃ wrap, l.front? (t :: rest) = some (wrap, rest) ∧ e' = wrap e := by
  obtain ⟨k, p⟩ := t
  cases h <;> exact ⟨_, rfl, rfl⟩

/-! ## The levels -/

section

variable (n steps : Nat)

/-- The parser of a level inside `n` brackets more; its own loop takes at most as many steps as given. -/
def signedAt : ExprParser := fronted sign? (postfixed (nesting n) (n + 1)) steps

@[inherit_doc signedAt]
def productAt : ExprParser := chain termTable (signedAt n (n + 1)) steps

@[inherit_doc signedAt]
def sumAt : ExprParser := chain additiveTable (productAt n (n + 1)) steps

@[inherit_doc signedAt]
def comparisonAt : ExprParser := chain comparisonTable (sumAt n (n + 1)) steps

@[inherit_doc signedAt]
def negationAt : ExprParser := fronted negation? (comparisonAt n (n + 1)) steps

@[inherit_doc signedAt]
def conjunctionAt : ExprParser := chain andTable (negationAt n (n + 1)) steps

@[inherit_doc signedAt]
def disjunctionAt : ExprParser := chain orTable (conjunctionAt n (n + 1)) steps

/-- The parser of a level inside `n` brackets more; its own loop takes at most as many steps as given, the
loops of the levels below one step for each of the `n + 1` tokens. -/
def parserAt : Level → ExprParser
  | .conditional => conditional (disjunctionAt n (n + 1)) steps
  | .disjunction => disjunctionAt n steps
  | .conjunction => conjunctionAt n steps
  | .negation => negationAt n steps
  | .comparison => comparisonAt n steps
  | .sum => sumAt n steps
  | .product => productAt n steps
  | .signed => signedAt n steps
  | .postfixed => postfixed (nesting n) steps
  | .primary => primary (nesting n) steps

theorem nesting_succ :
    nesting (n + 1) = ⟨parserAt n (n + 1) .conditional, pipeline (parserAt n (n + 1) .conditional) (n + 1)⟩ := rfl

theorem parserAt_chain (h : l.operand? = some m) :
    parserAt n steps l = chain l.table (parserAt n (n + 1) m) steps := by
  cases l <;> cases h <;> rfl

end

/-- The parser of a level, made of the parsers of the levels below it and of what stands in brackets. -/
def Level.body (nested : Nested) (below : Level → ExprParser) (steps : Nat) : Level → ExprParser
  | .conditional => ExprParser.conditional (below .disjunction) steps
  | .disjunction => chain orTable (below .conjunction) steps
  | .conjunction => chain andTable (below .negation) steps
  | .negation => fronted negation? (below .comparison) steps
  | .comparison => chain comparisonTable (below .sum) steps
  | .sum => chain additiveTable (below .product) steps
  | .product => chain termTable (below .signed) steps
  | .signed => fronted sign? (below .postfixed) steps
  | .postfixed => fun ts => do
    let (target, rest) ← below .primary ts
    postfixRest nested steps target rest
  | .primary => ExprParser.primary nested steps

theorem Level.body_chain {nested : Nested} {below : Level → ExprParser} {steps : Nat} (h : l.operand? = some m) :
    l.body nested below steps = chain l.table (below m) steps := by
  cases l <;> cases h <;> rfl

theorem parserAt_eq_body (n : Nat) (l : Level) :
    parserAt n (n + 1) l = l.body (nesting n) (parserAt n (n + 1)) (n + 1) := by
  cases l <;> rfl

end TemplateEngine.ExprGrammar

/-
The parser takes every phrase of the greedy dialect. What follows the phrase ends its level, so that no
loop goes on past it, and there are as many steps for the loops as there are tokens, so that none stops
before its end.
-/
import TemplateEngine.Proofs.Expr.Soundness

namespace TemplateEngine.ExprGrammar

open ExprParser

variable {d : Dialect} {l m : Level} {n steps : Nat} {ts us rest : List ExprToken} {t c : ExprToken} {e : Expr}

/-! ## What stops a loop -/

/-- The closing brackets. -/
def closing : ExprTokenKind → Bool
  | .symbol .parenClose | .symbol .bracketClose | .symbol .braceClose => true
  | _ => false

/-- What follows a pipeline: a closing bracket, the end, or a comma that its last filter does not take in. -/
def Stops (withArgs : Bool) (rest : List ExprToken) : Prop :=
  ∀ t ∈ rest.head?, closing t.kind = true ∨ t.kind = .done ∨ t.kind = .symbol .comma ∧ withArgs = false

theorem starter_of_closing {k : ExprTokenKind} (h : closing k = true) : starter k = none := by
  unfold closing at h
  split at h <;> first | rfl | cases h

theorem continues_of_closing {k : ExprTokenKind} (h : closing k = true) : continues k = none := by
  unfold closing at h
  split at h <;> first | rfl | cases h

theorem Stops.close (h : closing c.kind = true) (withArgs : Bool) (rest : List ExprToken) :
    Stops withArgs (c :: rest) := by
  intro u hu
  cases hu
  exact .inl h

theorem Stops.comma (h : t.kind = .symbol .comma) {withArgs : Bool} (hw : withArgs = false) (rest : List ExprToken) :
    Stops withArgs (t :: rest) := by
  intro u hu
  cases hu
  exact .inr (.inr ⟨h, hw⟩)

theorem Stops.ends {withArgs : Bool} (h : Stops withArgs rest) : Ends l rest := by
  intro t ht m hm
  have hk : continues t.kind = none := by
    rcases h t ht with hc | hd | ⟨hc, -⟩
    · exact continues_of_closing hc
    · rw [hd]; rfl
    · rw [hc]; rfl
  rw [hk] at hm
  cases hm

theorem Stops.closed {withArgs : Bool} (h : Stops withArgs rest) : Closed withArgs rest := by
  rintro rfl t ht hk
  rcases h t ht with hc | hd | ⟨-, hf⟩
  · rw [hk] at hc; cases hc
  · rw [hk] at hd; cases hd
  · cases hf

/-- A pipeline is followed neither by a further filter nor by arguments. -/
theorem Stops.kind_ne {withArgs : Bool} (h : Stops withArgs (t :: rest)) :
    t.kind ≠ .symbol .bar ∧ t.kind ≠ .symbol .colon := by
  rcases h t rfl with hc | hd | ⟨hc, -⟩
  · constructor <;> (intro hk; rw [hk] at hc; cases hc)
  · rw [hd]; exact ⟨nofun, nofun⟩
  · rw [hc]; exact ⟨nofun, nofun⟩

/-! ## The loops at their ends -/

theorem chainRest_of_ends (h : Ends l rest) (operand : ExprParser) (left : Expr) :
    chainRest l.table operand steps left rest = .ok (left, rest) := by
  cases steps with
  | zero => rfl
  | succ steps => unfold chainRest; rw [h.table]

theorem fronted_of_starts (hs : m.Starts t.kind) (hm : m.rank < l.rank) (operand : ExprParser) :
    fronted l.front? operand steps (t :: us) = operand (t :: us) := by
  cases steps with
  | zero => rfl
  | succ steps =>
    have hf : l.front? (t :: us) = none := by
      cases hf : l.front? (t :: us) with
      | none => rfl
      | some p =>
        obtain ⟨u, hu, hw⟩ := Front.of_front? hf
        cases hu
        exact absurd ((hw (.name "")).starts_iff.1 hs) (Nat.not_le_of_lt hm)
    unfold fronted
    rw [hf]

theorem conditional_of_ends {operand : ExprParser} (ho : operand ts = .ok (e, rest)) (h : Ends .conditional rest) :
    conditional operand steps ts = .ok (e, rest) := by
  cases steps with
  | zero => exact ho
  | succ steps =>
    unfold conditional
    rw [ho, ok_bind]
    dsimp only
    split
    · exact absurd rfl h.not_continues
    · rfl

theorem postfixRest_of_ends {nested : Nested} {target : Expr} (h : Ends .postfixed rest) :
    postfixRest nested steps target rest = .ok (target, rest) := by
  unfold postfixRest
  split
  · exact absurd rfl h.not_continues
  · exact absurd rfl h.not_continues
  · exact absurd rfl h.not_continues
  · rfl

theorem commaRest_of_closed {argument : ExprParser} (h : Closed true rest) :
    commaRest argument steps rest = .ok ([], rest) := by
  unfold commaRest
  split
  · exact absurd rfl (h rfl _ rfl)
  · rfl

theorem pipelineRest_of_stops {argument : ExprParser} {value : Expr} {withArgs : Bool} (h : Stops withArgs rest) :
    pipelineRest argument steps value rest = .ok (value, rest) := by
  unfold pipelineRest
  split
  · exact absurd rfl h.kind_ne.1
  · rfl

theorem Stages.ends {before after : Bool} {value : Expr} (h : Stages d before value ts after e)
    (hr : Stops after rest) : Ends .conditional (ts ++ rest) := by
  cases h with
  | nil => exact hr.ends
  | plain ht => exact .of_none (by rw [ht]; rfl) _
  | withArgs ht => exact .of_none (by rw [ht]; rfl) _

theorem Stages.closed {before after : Bool} {value : Expr} (h : Stages d before value ts after e)
    (hr : Stops after rest) : Closed before (ts ++ rest) := by
  cases h with
  | nil => exact hr.closed
  | plain ht => rintro - u ⟨⟩; rw [ht]; exact nofun
  | withArgs ht => rintro - u ⟨⟩; rw [ht]; exact nofun

theorem filterArguments_of_stages {argument : ExprParser} {before after : Bool} {value : Expr}
    (h : Stages d before value ts after e) (hr : Stops after rest) :
    filterArguments argument steps (ts ++ rest) = .ok ([], ts ++ rest) := by
  unfold filterArguments
  split
  · rename_i p us hu
    cases h with
    | nil =>
      change rest = _ at hu
      rw [hu] at hr
      exact absurd rfl hr.kind_ne.2
    | plain ht => cases hu; cases ht
    | withArgs ht => cases hu; cases ht
  · rfl

theorem Ends.primary : Ends .primary rest := by
  intro t _ m hm
  unfold continues at hm
  split at hm <;> cases hm <;> decide

theorem parserAt_front {wrap : Expr → Expr} (hf : l.front? ts = some (wrap, us))
    (h : parserAt n steps l us = .ok (e, rest)) : parserAt n (steps + 1) l ts = .ok (wrap e, rest) := by
  cases l with
  | negation =>
    change fronted negation? _ _ _ = _
    unfold fronted
    change negation? ts = _ at hf
    rw [hf]
    change (parserAt n steps .negation us >>= _) = _
    rw [h]
    rfl
  | signed =>
    change fronted sign? _ _ _ = _
    unfold fronted
    change sign? ts = _ at hf
    rw [hf]
    change (parserAt n steps .signed us >>= _) = _
    rw [h]
    rfl
  | _ => cases hf

/-! ## Rows of elements -/

/-- One or more elements with commas between them. -/
def someElements (element : ExprParser) (close : Symbol) (steps : Nat) (ts : List ExprToken) :
    Except ReadFailure (List Expr × List ExprToken) := do
  let (e, rest) ← element ts
  let (es, rest) ← elementsRest element close steps rest
  return (e :: es, rest)

/-- One or more entries with commas between them. -/
def someEntries (nested : Nested) (steps : Nat) (ts : List ExprToken) :
    Except ReadFailure (List (Expr × Expr) × List ExprToken) := do
  let (e, rest) ← entry nested ts
  let (es, rest) ← entriesRest nested steps rest
  return (e :: es, rest)

theorem head?_ne_of_starts {k : ExprTokenKind} (hs : l.Starts t.kind) (hk : starter k = none) :
    ¬ (t :: us).head?.map (·.kind) = some k := by
  rintro ⟨⟩
  exact Level.Starts.of_none hk hs

theorem elementsRest_of_starts {element : ExprParser} {close : Symbol} (ht : t.kind = .symbol .comma)
    (hs : l.Starts c.kind) (hk : starter (.symbol close) = none) :
    elementsRest element close (steps + 1) (t :: c :: us) = someElements element close steps (c :: us) := by
  obtain ⟨k, p⟩ := t
  cases ht
  exact if_neg (head?_ne_of_starts hs hk)

theorem entriesRest_of_starts {nested : Nested} (ht : t.kind = .symbol .comma) (hs : l.Starts c.kind) :
    entriesRest nested (steps + 1) (t :: c :: us) = someEntries nested steps (c :: us) := by
  obtain ⟨k, p⟩ := t
  cases ht
  exact if_neg (head?_ne_of_starts hs rfl)

theorem elements_of_starts {element : ExprParser} {close : Symbol} {es : List Expr} (hs : l.Starts t.kind)
    (hk : starter (.symbol close) = none) (h : someElements element close steps (t :: us) = .ok (es, c :: rest))
    (hc : c.kind = .symbol close) : elements element close steps (t :: us) = .ok (es, rest) := by
  obtain ⟨⟨e, rest₁⟩, he, h₁⟩ := bind_eq_ok.1 h
  obtain ⟨⟨es', rest₂⟩, hes, h₂⟩ := bind_eq_ok.1 h₁
  cases h₂
  unfold elements
  rw [if_neg (head?_ne_of_starts hs hk), he, ok_bind]
  dsimp only
  rw [hes, ok_bind]
  dsimp only
  rw [expect_eq_ok.2 ⟨c, hc, rfl⟩]
  rfl

theorem entries_of_starts {nested : Nested} {es : List (Expr × Expr)} (hs : l.Starts t.kind)
    (h : someEntries nested steps (t :: us) = .ok (es, c :: rest)) (hc : c.kind = .symbol .braceClose) :
    entries nested steps (t :: us) = .ok (es, rest) := by
  obtain ⟨⟨e, rest₁⟩, he, h₁⟩ := bind_eq_ok.1 h
  obtain ⟨⟨es', rest₂⟩, hes, h₂⟩ := bind_eq_ok.1 h₁
  cases h₂
  unfold entries
  rw [if_neg (head?_ne_of_starts hs rfl), he, ok_bind]
  dsimp only
  rw [hes, ok_bind]
  dsimp only
  rw [expect_eq_ok.2 ⟨c, hc, rfl⟩]
  rfl

/-- A row of elements is over at its closing bracket. -/
theorem elementsRest_close {element : ExprParser} {close : Symbol} (hc : c.kind = .symbol close)
    (hclose : closing (.symbol close) = true) : elementsRest element close steps (c :: rest) = .ok ([], c :: rest) := by
  unfold elementsRest
  split
  · rename_i hu
    cases hu
    cases hc
    cases hclose
  · rfl

/-- A comma before the closing bracket is passed over. -/
theorem elementsRest_trailing {element : ExprParser} {close : Symbol} (ht : t.kind = .symbol .comma)
    (hc : c.kind = .symbol close) :
    elementsRest element close (steps + 1) (t :: c :: rest) = .ok ([], c :: rest) := by
  obtain ⟨k, p⟩ := t
  cases ht
  exact if_pos (head?_kind_eq.2 ⟨c, rest, hc, rfl⟩)

theorem entriesRest_close {nested : Nested} (hc : c.kind = .symbol .braceClose) :
    entriesRest nested steps (c :: rest) = .ok ([], c :: rest) := by
  unfold entriesRest
  split
  · rename_i hu
    cases hu
    cases hc
  · rfl

theorem entriesRest_trailing {nested : Nested} (ht : t.kind = .symbol .comma) (hc : c.kind = .symbol .braceClose) :
    entriesRest nested (steps + 1) (t :: c :: rest) = .ok ([], c :: rest) := by
  obtain ⟨k, p⟩ := t
  cases ht
  exact if_pos (head?_kind_eq.2 ⟨c, rest, hc, rfl⟩)

/-! ## What it is to take a phrase

A phrase is taken whenever enough steps are left and what follows does not go on with it. A phrase inside
brackets is read by the parsers of one nesting level less, for which the opening bracket has left one token
less.
-/

/-- The parser of a level takes the tokens of an expression and no more. -/
def LevelParses (l : Level) (ts : List ExprToken) (e : Expr) : Prop :=
  ∀ n steps rest, (ts ++ rest).length ≤ n + 1 → (ts ++ rest).length ≤ steps → Ends l rest →
    parserAt n steps l (ts ++ rest) = .ok (e, rest)

/-- The loop over the operators of a level takes operators and operands and no more. -/
def ChainParses (l : Level) (left : Expr) (ts : List ExprToken) (e : Expr) : Prop :=
  ∀ m n steps rest, l.operand? = some m → (ts ++ rest).length ≤ n + 1 → (ts ++ rest).length ≤ steps → Ends l rest →
    chainRest l.table (parserAt n (n + 1) m) steps left (ts ++ rest) = .ok (e, rest)

/-- The loop over members, items and calls takes them and no more. -/
def SuffixesParse (target : Expr) (ts : List ExprToken) (e : Expr) : Prop :=
  ∀ n steps rest, (ts ++ rest).length ≤ n + 1 → (ts ++ rest).length ≤ steps → Ends .postfixed rest →
    postfixRest (nesting n) steps target (ts ++ rest) = .ok (e, rest)

/-- The parser inside brackets takes a pipeline and no more. -/
def PipelineParses (withArgs : Bool) (ts : List ExprToken) (e : Expr) : Prop :=
  ∀ n rest, (ts ++ rest).length ≤ n → Stops withArgs rest → (nesting n).element (ts ++ rest) = .ok (e, rest)

/-- The loop over filters takes them and no more. -/
def StagesParse (value : Expr) (ts : List ExprToken) (after : Bool) (e : Expr) : Prop :=
  ∀ n steps rest, (ts ++ rest).length ≤ n + 1 → (ts ++ rest).length ≤ steps → Stops after rest →
    pipelineRest (parserAt n (n + 1) .conditional) steps value (ts ++ rest) = .ok (e, rest)

/-- After a colon the arguments of a filter are taken and no more. -/
def ArgumentsParse (ts : List ExprToken) (es : List Expr) : Prop :=
  ∀ n steps p rest, (ts ++ rest).length ≤ n + 1 → (ts ++ rest).length ≤ steps → Ends .conditional rest →
    Closed true rest →
    filterArguments (parserAt n (n + 1) .conditional) steps (⟨.symbol .colon, p⟩ :: (ts ++ rest)) = .ok (es, rest)

/-- Elements are taken up to where a row of elements is over. -/
def ItemsParse (last : Bool) (ts : List ExprToken) (es : List Expr) : Prop :=
  ∀ n steps close tail rest, (ts ++ tail).length ≤ n → (ts ++ tail).length ≤ steps →
    starter (.symbol close) = none → Stops last tail →
    (∀ k, tail.length ≤ k → elementsRest (nesting n).element close k tail = .ok ([], rest)) →
    someElements (nesting n).element close steps (ts ++ tail) = .ok (es, rest)

/-- Elements and the bracket that closes them are taken. -/
def ElementsParse (ts : List ExprToken) (es : List Expr) : Prop :=
  ∀ n steps close c rest, c.kind = .symbol close → closing (.symbol close) = true → (ts ++ c :: rest).length ≤ n →
    (ts ++ c :: rest).length ≤ steps →
    elements (nesting n).element close steps (ts ++ c :: rest) = .ok (es, rest)

/-- Entries are taken up to where a row of entries is over. -/
def EntriesParse (last : Bool) (ts : List ExprToken) (es : List (Expr × Expr)) : Prop :=
  ∀ n steps tail rest, (ts ++ tail).length ≤ n → (ts ++ tail).length ≤ steps → Stops last tail →
    (∀ k, tail.length ≤ k → entriesRest (nesting n) k tail = .ok ([], rest)) →
    someEntries (nesting n) steps (ts ++ tail) = .ok (es, rest)

/-- Entries and the brace that closes them are taken. -/
def PairsParse (ts : List ExprToken) (es : List (Expr × Expr)) : Prop :=
  ∀ n steps c rest, c.kind = .symbol .braceClose → (ts ++ c :: rest).length ≤ n → (ts ++ c :: rest).length ≤ steps →
    entries (nesting n) steps (ts ++ c :: rest) = .ok (es, rest)

/-! ## Every phrase is taken

By induction on derivations, all kinds of phrases at once.
-/

theorem entry_of_parses {withArgs : Bool} {key value : Expr} (hk : LevelParses .conditional ts key)
    (ht : t.kind = .symbol .colon) (hv : PipelineParses withArgs us value)
    (hn : (ts ++ t :: (us ++ rest)).length ≤ n) (hr : Stops withArgs rest) :
    entry (nesting n) (ts ++ t :: (us ++ rest)) = .ok ((key, value), rest) := by
  cases n with
  | zero => exact absurd hn (by simp)
  | succ n =>
    have hn₁ := Nat.le_of_succ_le (length_le_of_append hn)
    have hkey := hk n (n + 1) _ hn hn (.of_none (by rw [ht]; rfl) _)
    unfold entry
    change (parserAt n (n + 1) .conditional _ >>= _) = _
    rw [hkey, ok_bind]
    dsimp only
    rw [expect_eq_ok.2 ⟨t, ht, rfl⟩, ok_bind, hv (n + 1) rest hn₁ hr]
    rfl

mutual

theorem Derives.parses {l : Level} {ts : List ExprToken} {e : Expr} : Derives .greedy l ts e → LevelParses l ts e
  | .disjunction h => by
    have ih := h.parses
    intro n steps rest hn hs hr
    exact conditional_of_ends (ih n _ _ hn hn (hr.mono (by decide))) hr
  | @Derives.conditional _ ts us vs ⟨kt, p⟩ ⟨ku, q⟩ _ _ _ hb ht hc hu ho => by
    have ihb := hb.parses
    have ihc := hc.parses
    have iho := ho.parses
    intro n steps rest hn hs hr
    cases ht
    cases hu
    simp only [List.append_assoc, List.cons_append] at hn hs ⊢
    have hn₁ := Nat.le_of_succ_le (length_le_of_append hn)
    have hn₂ := Nat.le_of_succ_le (length_le_of_append hn₁)
    cases steps with
    | zero => exact absurd hs (by simp)
    | succ steps =>
      have hs₁ := length_le_of_append hs
      have hs₂ := Nat.le_of_succ_le (length_le_of_append (Nat.le_of_succ_le_succ hs₁))
      -- `if` goes on with a conditional only, so the body ends before it; `else` goes on with nothing
      have hbody := ihb n _ _ hn hn (.of_continues rfl (by rintro m ⟨⟩; decide) _)
      have hcond := ihc n _ _ hn₁ hn₁ (.of_none rfl _)
      have helse := iho n steps rest hn₂ hs₂ hr
      change conditional (parserAt n (n + 1) .disjunction) (steps + 1) _ = _
      unfold conditional
      rw [hbody, ok_bind]
      dsimp only
      rw [hcond, ok_bind]
      dsimp only
      change (parserAt n steps .conditional _ >>= _) = _
      rw [helse]
      rfl
  | .chain hl h hc => by
    have ih := h.parses
    have ihc := hc.parses
    intro n steps rest hn hs hr
    rw [List.append_assoc] at hn hs ⊢
    rw [parserAt_chain n steps hl]
    unfold chain
    rw [ih n _ _ hn hn (hc.ends hl hr)]
    exact ihc _ n steps rest hl (length_le_of_append hn) (length_le_of_append hs) hr
  | .comparison h => by
    have ih := h.parses
    intro n steps rest hn hs hr
    -- the first token starts a comparison, so that it is no `not` for the parser to take off first
    obtain ⟨t, us, rfl, ht⟩ := h.starts
    exact (fronted_of_starts (l := .negation) ht (by decide) _).trans (ih n _ _ hn hn (hr.mono (by decide)))
  | .postfixed h => by
    have ih := h.parses
    intro n steps rest hn hs hr
    obtain ⟨t, us, rfl, ht⟩ := h.starts
    exact (fronted_of_starts (l := .signed) ht (by decide) _).trans (ih n _ _ hn hn (hr.mono (by decide)))
  | @Derives.front _ l _ ts _ _ ht h => by
    have ih := h.parses
    intro n steps rest hn hs hr
    cases steps with
    | zero => exact absurd hs (by simp)
    | succ steps =>
      have hoperand := ih n steps rest (Nat.le_of_succ_le hn) (Nat.le_of_succ_le_succ hs) hr
      obtain ⟨wrap, hf, rfl⟩ := ht.front? (ts ++ rest)
      exact parserAt_front hf hoperand
  | .suffixes h hsuf => by
    have ih := h.parses
    have ihs := hsuf.parses
    intro n steps rest hn hs hr
    rw [List.append_assoc] at hn hs ⊢
    have hprimary := ih n steps _ hn hs .primary
    change (parserAt n steps .primary _ >>= _) = _
    rw [hprimary]
    exact ihs n steps rest (length_le_of_append hn) (length_le_of_append hs) hr
  | .number (t := ⟨k, p⟩) ht hr => by
    intro n steps rest hn hs _
    cases ht
    change (numberLiteral _ >>= _) = _
    rw [numberLiteral_eq_ok.2 ⟨hr, rfl⟩]
    rfl
  | .str (t := ⟨k, p⟩) ht => by
    intro n steps rest hn hs _
    cases ht
    rfl
  | .constant (t := ⟨k, p⟩) ht hk => by
    intro n steps rest hn hs _
    cases ht
    change (match constant? _ with | some l => _ | none => _) = _
    rw [constant?_eq_some.2 hk]
    rfl
  | .name (t := ⟨k, p⟩) ht => by
    intro n steps rest hn hs _
    cases ht
    rfl
  | @Derives.group _ ⟨k, p⟩ c ts _ _ ho h hc => by
    have ih := h.parses
    intro n steps rest hn hs _
    cases ho
    simp only [List.append_assoc, List.cons_append, List.nil_append] at hn hs ⊢
    change ((nesting n).element (ts ++ c :: rest) >>= _) = _
    rw [ih n _ (Nat.le_of_succ_le_succ hn) (.close (by rw [hc]; rfl) _ _), ok_bind]
    dsimp only
    rw [expect_eq_ok.2 ⟨c, hc, rfl⟩]
    rfl
  | @Derives.list _ ⟨k, p⟩ c ts _ ho h hc => by
    have ih := h.parses
    intro n steps rest hn hs _
    cases ho
    simp only [List.append_assoc, List.cons_append, List.nil_append] at hn hs ⊢
    change (elements (nesting n).element .bracketClose steps (ts ++ c :: rest) >>= _) = _
    rw [ih n steps _ c rest hc rfl (Nat.le_of_succ_le_succ hn) (Nat.le_of_succ_le hs)]
    rfl
  | @Derives.dict _ ⟨k, p⟩ c ts _ ho h hc => by
    have ih := h.parses
    intro n steps rest hn hs _
    cases ho
    simp only [List.append_assoc, List.cons_append, List.nil_append] at hn hs ⊢
    change (entries (nesting n) steps (ts ++ c :: rest) >>= _) = _
    rw [ih n steps c rest hc (Nat.le_of_succ_le_succ hn) (Nat.le_of_succ_le hs)]
    rfl

theorem Chain.parses {l : Level} {left : Expr} {ts : List ExprToken} {e : Expr} :
    Chain .greedy l left ts e → ChainParses l left ts e
  | .nil => fun _ _ _ _ _ _ _ hr => chainRest_of_ends hr _ _
  | @Chain.cons _ l _ _ _ us _ _ _ _ hl' ho h hc => by
    have ih := h.parses
    have ihc := hc.parses
    intro m n steps rest hl hn hs hr
    cases hl'.symm.trans hl
    simp only [List.append_assoc] at hn hs ⊢
    obtain ⟨t, os, rfl, -⟩ := ho.continues
    cases steps with
    | zero => exact absurd hs (by simp)
    | succ steps =>
      have hn₁ := length_le_of_append hn
      -- an operator has at least one token, which pays for the step
      have hs₁ : (us ++ rest).length ≤ steps := by
        simp only [List.cons_append, List.length_cons, List.length_append] at hs ⊢
        omega
      unfold chainRest
      rw [ho.table]
      dsimp only
      rw [ih n _ _ hn₁ hn₁ (hc.ends hl hr)]
      exact ihc _ n steps rest hl (length_le_of_append hn₁) hs₁ hr

theorem Suffixes.parses {target : Expr} {ts : List ExprToken} {e : Expr} :
    Suffixes .greedy target ts e → SuffixesParse target ts e
  | .nil => fun _ _ _ _ _ hr => postfixRest_of_ends hr
  | .member (t := ⟨kt, p⟩) (u := ⟨ku, q⟩) ht hu h => by
    have ih := h.parses
    intro n steps rest hn hs hr
    cases ht
    cases hu
    cases steps with
    | zero => exact absurd hs (by simp)
    | succ steps =>
      exact ih n steps rest (Nat.le_of_succ_le (Nat.le_of_succ_le hn)) (Nat.le_of_succ_le (Nat.le_of_succ_le_succ hs)) hr
  | @Suffixes.item _ ⟨ko, p⟩ c ts us _ _ _ _ ho h hc hsuf => by
    have ih := h.parses
    have ihs := hsuf.parses
    intro n steps rest hn hs hr
    cases ho
    simp only [List.append_assoc, List.cons_append] at hn hs ⊢
    cases steps with
    | zero => exact absurd hs (by simp)
    | succ steps =>
      have hn₁ := Nat.le_of_succ_le (length_le_of_append (Nat.le_of_succ_le hn))
      have hs₁ := Nat.le_of_succ_le (length_le_of_append (Nat.le_of_succ_le_succ hs))
      change ((nesting n).element (ts ++ c :: (us ++ rest)) >>= _) = _
      rw [ih n _ (Nat.le_of_succ_le_succ hn) (.close (by rw [hc]; rfl) _ _), ok_bind]
      dsimp only
      rw [expect_eq_ok.2 ⟨c, hc, rfl⟩]
      exact ihs n steps rest hn₁ hs₁ hr
  | @Suffixes.call _ ⟨ko, p⟩ c ts us _ _ _ ho h hc hsuf => by
    have ih := h.parses
    have ihs := hsuf.parses
    intro n steps rest hn hs hr
    cases ho
    simp only [List.append_assoc, List.cons_append] at hn hs ⊢
    cases steps with
    | zero => exact absurd hs (by simp)
    | succ steps =>
      have hs₁ := Nat.le_of_succ_le_succ hs
      have hn₂ := Nat.le_of_succ_le (length_le_of_append (Nat.le_of_succ_le hn))
      have hs₂ := Nat.le_of_succ_le (length_le_of_append hs₁)
      change (elements (nesting n).element .parenClose steps (ts ++ c :: (us ++ rest)) >>= _) = _
      rw [ih n steps _ c _ hc rfl (Nat.le_of_succ_le_succ hn) hs₁]
      exact ihs n steps rest hn₂ hs₂ hr

theorem Pipeline.parses {withArgs : Bool} {ts : List ExprToken} {e : Expr} :
    Pipeline .greedy withArgs ts e → PipelineParses withArgs ts e
  | .mk h hst => by
    have ih := h.parses
    have ihs := hst.parses
    intro n rest hn hr
    rw [List.append_assoc] at hn ⊢
    cases n with
    | zero => exact absurd (List.eq_nil_of_length_eq_zero (Nat.le_zero.1 hn)) (by simp [h.ne_nil])
    | succ n =>
      rw [nesting_succ]
      change (parserAt n (n + 1) .conditional _ >>= _) = _
      rw [ih n _ _ hn hn (hst.ends hr)]
      exact ihs n _ rest (length_le_of_append hn) (length_le_of_append hn) hr

theorem Stages.parses {before after : Bool} {value : Expr} {ts : List ExprToken} {e : Expr} :
    Stages .greedy before value ts after e → StagesParse value ts after e
  | .nil => fun _ _ _ _ _ hr => pipelineRest_of_stops hr
  | @Stages.plain _ ⟨kt, p⟩ ⟨ku, q⟩ us _ _ _ _ _ ht hu h => by
    have ih := h.parses
    intro n steps rest hn hs hr
    cases ht
    cases hu
    cases steps with
    | zero => exact absurd hs (by simp)
    | succ steps =>
      have hn₁ := Nat.le_of_succ_le (Nat.le_of_succ_le hn)
      have hs₁ := Nat.le_of_succ_le (Nat.le_of_succ_le_succ hs)
      change (filterArguments _ steps (us ++ rest) >>= _) = _
      -- no colon follows the name: neither a further filter nor what stops the pipeline starts with one
      rw [filterArguments_of_stages h hr]
      exact ih n steps rest hn₁ hs₁ hr
  | @Stages.withArgs _ ⟨kt, p⟩ ⟨ku, q⟩ ⟨kc, r⟩ ts us _ _ _ _ _ _ ht hu hc ha h => by
    have iha := ha.parses
    have ih := h.parses
    intro n steps rest hn hs hr
    cases ht
    cases hu
    cases hc
    simp only [List.append_assoc, List.cons_append] at hn hs ⊢
    cases steps with
    | zero => exact absurd hs (by simp)
    | succ steps =>
      have hn₁ := Nat.le_of_succ_le (Nat.le_of_succ_le (Nat.le_of_succ_le hn))
      have hs₁ := Nat.le_of_succ_le (Nat.le_of_succ_le (Nat.le_of_succ_le_succ hs))
      change (filterArguments _ steps (⟨.symbol .colon, r⟩ :: (ts ++ (us ++ rest))) >>= _) = _
      rw [iha n steps r _ hn₁ hs₁ (h.ends hr) (h.closed hr)]
      exact ih n steps rest (length_le_of_append hn₁) (length_le_of_append hs₁) hr

theorem Arguments.parses {ts : List ExprToken} {es : List Expr} : Arguments .greedy ts es → ArgumentsParse ts es
  | .one h => by
    have ih := h.parses
    intro n steps p rest hn hs hr hc
    change (parserAt n (n + 1) .conditional _ >>= _) = _
    rw [ih n _ _ hn hn hr, ok_bind]
    dsimp only
    rw [commaRest_of_closed hc]
    rfl
  | @Arguments.cons _ _ us ⟨kt, q⟩ _ _ h ht ha => by
    have ih := h.parses
    have iha := ha.parses
    intro n steps p rest hn hs hr hc
    cases ht
    simp only [List.append_assoc, List.cons_append] at hn hs ⊢
    change (parserAt n (n + 1) .conditional _ >>= _) = _
    rw [ih n _ _ hn hn (.of_none rfl _), ok_bind]
    dsimp only
    have hs₁ := length_le_of_append hs
    cases steps with
    | zero => exact absurd hs₁ (by simp)
    | succ steps =>
      have hrest := iha n steps p rest (Nat.le_of_succ_le (length_le_of_append hn)) (Nat.le_of_succ_le_succ hs₁) hr hc
      change (filterArguments _ steps (⟨.symbol .colon, p⟩ :: (us ++ rest)) >>= _) = _
      rw [hrest]
      rfl

theorem Items.parses {last : Bool} {ts : List ExprToken} {es : List Expr} :
    Items .greedy last ts es → ItemsParse last ts es
  | .one h => by
    have ih := h.parses
    intro n steps close tail rest hn hs _ hst ht
    unfold someElements
    rw [ih n _ hn hst, ok_bind]
    dsimp only
    rw [ht steps (length_le_of_append hs)]
    rfl
  | .cons h hd ht hi => by
    have ih := h.parses
    have ihi := hi.parses
    intro n steps close tail rest hn hs hk hst htail
    simp only [List.append_assoc, List.cons_append] at hn hs ⊢
    unfold someElements
    -- the greedy dialect allows the comma only after an element whose last filter would not take it in
    rw [ih n _ hn (.comma ht hd _), ok_bind]
    dsimp only
    have hs₁ := length_le_of_append hs
    cases steps with
    | zero => exact absurd hs₁ (by simp)
    | succ steps =>
      have hrest := ihi n steps close tail rest (Nat.le_of_succ_le (length_le_of_append hn))
        (Nat.le_of_succ_le_succ hs₁) hk hst htail
      obtain ⟨c, vs, rfl, hc⟩ := hi.starts
      rw [List.cons_append, elementsRest_of_starts ht hc hk, ← List.cons_append, hrest]
      rfl

theorem Elements.parses {ts : List ExprToken} {es : List Expr} : Elements .greedy ts es → ElementsParse ts es
  | .nil => by
    intro n steps close c rest hc hclose hn hs
    exact if_pos (head?_kind_eq.2 ⟨c, rest, hc, rfl⟩)
  | .items h => by
    have ih := h.parses
    intro n steps close c rest hc hclose hn hs
    have hk := starter_of_closing hclose
    have hsome := ih n steps close (c :: rest) (c :: rest) hn hs hk (.close (by rw [hc]; exact hclose) _ _)
      (fun _ _ => elementsRest_close hc hclose)
    obtain ⟨t, us, rfl, ht⟩ := h.starts
    exact elements_of_starts ht hk hsome hc
  | .trailing (t := t) h hd ht => by
    have ih := h.parses
    intro n steps close c rest hc hclose hn hs
    rw [List.append_assoc] at hn hs ⊢
    have hk := starter_of_closing hclose
    have hsome := ih n steps close (t :: c :: rest) (c :: rest) hn hs hk (.comma ht hd _) (by
      intro k hk
      cases k with
      | zero => exact absurd hk (by simp)
      | succ k => exact elementsRest_trailing ht hc)
    obtain ⟨u, us, rfl, hu⟩ := h.starts
    exact elements_of_starts hu hk hsome hc

theorem Entries.parses {last : Bool} {ts : List ExprToken} {es : List (Expr × Expr)} :
    Entries .greedy last ts es → EntriesParse last ts es
  | .one hk ht hv => by
    have ihk := hk.parses
    have ihv := hv.parses
    intro n steps tail rest hn hs hst htail
    simp only [List.append_assoc, List.cons_append] at hn hs ⊢
    unfold someEntries
    rw [entry_of_parses ihk ht ihv hn hst, ok_bind]
    dsimp only
    rw [htail steps (length_le_of_append (Nat.le_of_succ_le (length_le_of_append hs)))]
    rfl
  | .cons hk ht hv hd hu hi => by
    have ihk := hk.parses
    have ihv := hv.parses
    have ihi := hi.parses
    intro n steps tail rest hn hs hst htail
    simp only [List.append_assoc, List.cons_append] at hn hs ⊢
    have hn₁ := length_le_of_append (Nat.le_of_succ_le (length_le_of_append hn))
    have hs₁ := length_le_of_append (Nat.le_of_succ_le (length_le_of_append hs))
    unfold someEntries
    rw [entry_of_parses ihk ht ihv hn (.comma hu hd _), ok_bind]
    dsimp only
    cases steps with
    | zero => exact absurd hs₁ (by simp)
    | succ steps =>
      have hrest := ihi n steps tail rest (Nat.le_of_succ_le hn₁) (Nat.le_of_succ_le_succ hs₁) hst htail
      obtain ⟨c, ws, rfl, hc⟩ := hi.starts
      rw [List.cons_append, entriesRest_of_starts hu hc, ← List.cons_append, hrest]
      rfl

theorem Pairs.parses {ts : List ExprToken} {es : List (Expr × Expr)} : Pairs .greedy ts es → PairsParse ts es
  | .nil => by
    intro n steps c rest hc hn hs
    exact if_pos (head?_kind_eq.2 ⟨c, rest, hc, rfl⟩)
  | .entries h => by
    have ih := h.parses
    intro n steps c rest hc hn hs
    have hsome := ih n steps (c :: rest) (c :: rest) hn hs (.close (by rw [hc]; rfl) _ _)
      (fun _ _ => entriesRest_close hc)
    obtain ⟨t, us, rfl, ht⟩ := h.starts
    exact entries_of_starts ht hsome hc
  | .trailing (t := t) h hd ht => by
    have ih := h.parses
    intro n steps c rest hc hn hs
    rw [List.append_assoc] at hn hs ⊢
    have hsome := ih n steps (t :: c :: rest) (c :: rest) hn hs (.comma ht hd _) (by
      intro k hk
      cases k with
      | zero => exact absurd hk (by simp)
      | succ k => exact entriesRest_trailing ht hc)
    obtain ⟨u, us, rfl, hu⟩ := h.starts
    exact entries_of_starts hu hsome hc

end

end TemplateEngine.ExprGrammar

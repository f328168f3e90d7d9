/-
The bounds of the parser are never met. Each turn of a loop and each pair of brackets takes a token, so that on a row of
tokens two parsers with at least as many steps and nesting levels as there are tokens do the same, whether they succeed
or fail.

Loops are compared by induction on their steps, where each turn leaves fewer tokens than there were before, and parsers of
nesting levels by induction on the number of tokens, since what stands in brackets is shorter than the row.
-/
import TemplateEngine.Proofs.Expr.Soundness

namespace TemplateEngine.ExprGrammar

open ExprParser

variable {d : Dialect} {l : Level} {k n m : Nat} {p q : ExprParser} {ts : List ExprToken} {s s' : Nat}

/-- Two parsers do the same on at most `n` tokens. -/
def Agree (n : Nat) (p q : ExprParser) : Prop :=
  ∀ ts : List ExprToken, ts.length ≤ n → p ts = q ts

/-- What a parser takes from at most `n` tokens is not nothing. -/
def Advances (n : Nat) (p : ExprParser) : Prop :=
  ∀ (ts : List ExprToken) (e : Expr) (rest : List ExprToken), ts.length ≤ n → p ts = .ok (e, rest) →
    rest.length < ts.length

theorem Agree.mono (h : Agree n p q) (hk : k ≤ n) : Agree k p q :=
  fun ts hts => h ts (Nat.le_trans hts hk)

theorem Advances.mono (h : Advances n p) (hk : k ≤ n) : Advances k p :=
  fun ts e rest hts => h ts e rest (Nat.le_trans hts hk)

theorem Takes.mono {phrase : List ExprToken → Expr → Prop} (h : Takes n phrase p) (hk : k ≤ n) : Takes k phrase p :=
  fun ts e rest hts => h ts e rest (Nat.le_trans hts hk)

theorem TakesPipeline.mono (h : TakesPipeline n p) (hk : k ≤ n) : TakesPipeline k p :=
  fun ts e rest hts => h ts e rest (Nat.le_trans hts hk)

theorem NestedTakes.mono {nested : Nested} (h : NestedTakes n nested) (hk : k ≤ n) : NestedTakes k nested :=
  ⟨h.key.mono hk, h.element.mono hk⟩

theorem length_lt_of_append {us rest : List ExprToken} (h : us ≠ []) : rest.length < (us ++ rest).length := by
  have hpos := List.length_pos_iff.2 h
  rw [List.length_append]
  omega

theorem Takes.advances (h : Takes n (Derives d l) p) : Advances n p := by
  intro ts e rest hts hp
  obtain ⟨us, rfl, hd⟩ := h ts e rest hts hp
  exact length_lt_of_append hd.ne_nil

theorem TakesPipeline.advances (h : TakesPipeline n p) : Advances n p := by
  intro ts e rest hts hp
  obtain ⟨us, withArgs, rfl, hd, -⟩ := h ts e rest hts hp
  exact length_lt_of_append hd.ne_nil

/-- A parser that takes something does not succeed without tokens. -/
theorem Advances.nil_fails (h : Advances n p) : Fails (p []) := by
  cases hp : p [] with
  | error failure => exact fails_error failure
  | ok r => exact absurd (h [] r.1 r.2 (Nat.zero_le n) hp) (Nat.not_lt_zero _)

theorem Operator.length_lt {join : Expr → Expr → Expr} {rest : List ExprToken} (h : l.table ts = some (join, rest)) :
    rest.length < ts.length := by
  obtain ⟨ops, rfl, hop⟩ := Operator.of_table h
  obtain ⟨t, us, rfl, -⟩ := hop.continues
  exact length_lt_of_append (List.cons_ne_nil t us)

/-- Two loops with a step for each token at least: either there are no tokens, or both take a step and go on with fewer
tokens. -/
theorem steps_induction {motive : Nat → Nat → List ExprToken → Prop} (nil : ∀ s s', motive s s' [])
    (step : ∀ s s' ts, ts.length ≤ s + 1 → ts.length ≤ s' + 1 →
      (∀ us : List ExprToken, us.length < ts.length → motive s s' us) → motive (s + 1) (s' + 1) ts)
    (hs : ts.length ≤ s) (hs' : ts.length ≤ s') : motive s s' ts := by
  induction s generalizing s' ts with
  | zero =>
    obtain rfl := List.eq_nil_of_length_eq_zero (Nat.le_zero.1 hs)
    exact nil 0 s'
  | succ s ih =>
    cases s' with
    | zero =>
      obtain rfl := List.eq_nil_of_length_eq_zero (Nat.le_zero.1 hs')
      exact nil (s + 1) 0
    | succ s' => exact step s s' ts hs hs' fun us hus => ih (by omega) (by omega)

/-! ## Loops over operators, filters and arguments -/

section

variable (hpq : Agree n p q) (hn : ts.length ≤ n) (hs : ts.length ≤ s) (hs' : ts.length ≤ s')
include hpq hn hs hs'

theorem fronted_agree : fronted l.front? p s ts = fronted l.front? q s' ts := by
  refine steps_induction (motive := fun s s' ts => ts.length ≤ n → fronted l.front? p s ts = fronted l.front? q s' ts)
    (fun s s' hn => ?_) (fun s s' ts _hs _hs' ih hn => ?_) hs hs' hn
  · -- no operator stands in front of nothing, so that the operand is read at once, with a step or without
    have hnil := hpq [] hn
    cases s <;> cases s' <;> cases l <;> exact hnil
  · unfold fronted
    split
    · exact hpq ts hn
    · rename_i wrap rest hf
      obtain ⟨t, rfl, -⟩ := Front.of_front? hf
      rw [List.length_cons] at hn ih
      exact bind_congr_ok (ih _ (by omega) (by omega)) fun _ _ => rfl

variable (hq : Advances n q)
include hq

theorem chainRest_agree (left : Expr) : chainRest l.table p s left ts = chainRest l.table q s' left ts := by
  refine steps_induction (motive := fun s s' ts => ts.length ≤ n → ∀ left,
    chainRest l.table p s left ts = chainRest l.table q s' left ts)
    (fun s s' hn left => ?_) (fun s s' ts _hs _hs' ih hn left => ?_) hs hs' hn left
  · cases s <;> cases s' <;> cases l <;> rfl
  · unfold chainRest
    split
    · rfl
    · rename_i join rest ht
      have hlt := Operator.length_lt ht
      refine bind_congr_ok (hpq rest (by omega)) fun ⟨right, rest'⟩ hr => ?_
      have hlt' := hq _ _ _ (by omega) hr
      exact ih _ (by omega) (by omega) _

theorem conditional_agree : conditional p s ts = conditional q s' ts := by
  refine steps_induction (motive := fun s s' ts => ts.length ≤ n → conditional p s ts = conditional q s' ts)
    (fun s s' hn => ?_) (fun s s' ts _hs _hs' ih hn => ?_) hs hs' hn
  · -- a step more would look behind the operand, but there is none
    obtain ⟨failure, hfail⟩ := hq.nil_fails
    have hfail' := (hpq [] hn).trans hfail
    cases s <;> cases s' <;> simp only [conditional, hfail, hfail', error_bind]
  · unfold conditional
    refine bind_congr_ok (hpq ts hn) fun taken hb => ?_
    obtain ⟨body, rest⟩ := taken
    have hlt := hq _ _ _ hn hb
    dsimp only
    split
    · rename_i rest
      rw [List.length_cons] at hlt
      refine bind_congr_ok (hpq rest (by omega)) fun taken hc => ?_
      obtain ⟨condition, rest'⟩ := taken
      have hlt' := hq _ _ _ (by omega) hc
      dsimp only
      split
      · rename_i rest'
        rw [List.length_cons] at hlt'
        exact bind_congr_ok (ih _ (by omega) (by omega)) fun _ _ => rfl
      · rfl
    · rfl

theorem commaRest_agree : commaRest p s ts = commaRest q s' ts := by
  refine steps_induction (motive := fun s s' ts => ts.length ≤ n → commaRest p s ts = commaRest q s' ts)
    (fun s s' hn => ?_) (fun s s' ts _hs _hs' ih hn => ?_) hs hs' hn
  · cases s <;> cases s' <;> rfl
  · unfold commaRest
    split
    · rename_i rest hst
      cases hst
      rw [List.length_cons] at hn ih
      refine bind_congr_ok (hpq rest (by omega)) fun ⟨e, rest'⟩ he => ?_
      have hlt := hq _ _ _ (by omega) he
      exact bind_congr_ok (ih _ (by omega) (by omega)) fun _ _ => rfl
    · rename_i hno
      split
      · rename_i hst
        cases hst
        exact absurd rfl (hno _ _ _ rfl)
      · rfl

theorem filterArguments_agree : filterArguments p s ts = filterArguments q s' ts := by
  unfold filterArguments
  split
  · rw [List.length_cons] at hn hs hs'
    refine bind_congr_ok (hpq _ (by omega)) fun ⟨e, rest'⟩ he => ?_
    have hlt := hq _ _ _ (by omega) he
    exact bind_congr_ok (commaRest_agree hpq (by omega) (by omega) (by omega) hq) fun _ _ => rfl
  · rfl

end

theorem commaRest_length_le (hq : Advances n q) (hn : ts.length ≤ n) {es : List Expr} {rest : List ExprToken}
    (h : commaRest q s ts = .ok (es, rest)) : rest.length ≤ ts.length := by
  induction s generalizing ts es with
  | zero =>
    cases h
    exact Nat.le_refl _
  | succ s ih =>
    unfold commaRest at h
    split at h
    · rename_i hst
      cases hst
      rw [List.length_cons] at hn ⊢
      obtain ⟨⟨e, rest₁⟩, he, h⟩ := bind_eq_ok.1 h
      obtain ⟨⟨es', rest₂⟩, hes, h⟩ := bind_eq_ok.1 h
      cases h
      have hlt := hq _ _ _ (by omega) he
      have hle := ih (by omega) hes
      omega
    · cases h
      exact Nat.le_refl _

theorem filterArguments_length_le (hq : Advances n q) (hn : ts.length ≤ n) {es : List Expr} {rest : List ExprToken}
    (h : filterArguments q s ts = .ok (es, rest)) : rest.length ≤ ts.length := by
  unfold filterArguments at h
  split at h
  · rw [List.length_cons] at hn ⊢
    obtain ⟨⟨e, rest₁⟩, he, h⟩ := bind_eq_ok.1 h
    obtain ⟨⟨es', rest₂⟩, hes, h⟩ := bind_eq_ok.1 h
    cases h
    have hlt := hq _ _ _ (by omega) he
    have hle := commaRest_length_le hq (by omega) hes
    omega
  · cases h
    exact Nat.le_refl _

theorem pipelineRest_agree (hpq : Agree n p q) (hq : Advances n q) (hn : ts.length ≤ n) (hs : ts.length ≤ s)
    (hs' : ts.length ≤ s') (value : Expr) : pipelineRest p s value ts = pipelineRest q s' value ts := by
  refine steps_induction (motive := fun s s' ts => ts.length ≤ n → ∀ value,
    pipelineRest p s value ts = pipelineRest q s' value ts)
    (fun s s' hn value => ?_) (fun s s' ts hs hs' ih hn value => ?_) hs hs' hn value
  · cases s <;> cases s' <;> rfl
  · unfold pipelineRest
    split
    · rename_i hst
      cases hst
      rw [List.length_cons] at hn hs hs' ih
      refine bind_congr_ok rfl fun ⟨name, rest₁⟩ hname => ?_
      obtain ⟨t, -, rfl⟩ := expectName_eq_ok.1 hname
      rw [List.length_cons] at hn hs hs' ih
      refine bind_congr_ok (filterArguments_agree hpq (by omega) (by omega) (by omega) hq) fun ⟨args, rest₂⟩ ha => ?_
      have hle := filterArguments_length_le hq (by omega) ha
      exact ih _ (by omega) (by omega) _
    · rename_i hno
      split
      · rename_i hst
        cases hst
        exact (hno _ _ _ rfl rfl).elim
      · rfl

/-! ## Brackets -/

/-- The parsers of what stands in brackets do the same on at most `n` tokens. -/
structure NestedAgree (n : Nat) (N N' : Nested) : Prop where
  key : Agree n N.key N'.key
  element : Agree n N.element N'.element

variable {N N' : Nested}

theorem NestedAgree.mono (h : NestedAgree n N N') (hk : k ≤ n) : NestedAgree k N N' :=
  ⟨h.key.mono hk, h.element.mono hk⟩

theorem entry_length_lt (hT : NestedTakes n N') {e : Expr × Expr} {rest : List ExprToken} (hn : ts.length ≤ n)
    (h : entry N' ts = .ok (e, rest)) : rest.length < ts.length := by
  obtain ⟨us, t, vs, -, rfl, -⟩ := entry_takes hT hn h
  simp only [List.length_append, List.length_cons]
  omega

section

variable (hN : NestedAgree n N N') (hT : NestedTakes n N') (hn : ts.length ≤ n) (hs : ts.length ≤ s)
  (hs' : ts.length ≤ s')
include hN hT hn

theorem entry_agree : entry N ts = entry N' ts := by
  unfold entry
  refine bind_congr_ok (hN.key ts hn) fun ⟨key, rest₁⟩ hk => ?_
  have hlt := hT.key.advances _ _ _ hn hk
  refine bind_congr_ok rfl fun rest₂ hx => ?_
  obtain ⟨t, -, rfl⟩ := expect_eq_ok.1 hx
  rw [List.length_cons] at hlt
  exact bind_congr_ok (hN.element rest₂ (by omega)) fun _ _ => rfl

include hs hs'

theorem elementsRest_agree (close : Symbol) :
    elementsRest N.element close s ts = elementsRest N'.element close s' ts := by
  refine steps_induction (motive := fun s s' ts => ts.length ≤ n →
    elementsRest N.element close s ts = elementsRest N'.element close s' ts)
    (fun s s' hn => ?_) (fun s s' ts _hs _hs' ih hn => ?_) hs hs' hn
  · cases s <;> cases s' <;> rfl
  · unfold elementsRest
    split
    · rename_i hst
      cases hst
      rw [List.length_cons] at hn ih
      refine ite_congr rfl (fun _ => rfl) fun _ => ?_
      refine bind_congr_ok (hN.element _ (by omega)) fun ⟨e, rest₁⟩ he => ?_
      have hlt := hT.element.advances _ _ _ (by omega) he
      exact bind_congr_ok (ih _ (by omega) (by omega)) fun _ _ => rfl
    · rename_i hno
      split
      · rename_i hst
        cases hst
        exact absurd rfl (hno _ _ _ rfl)
      · rfl

theorem elements_agree (close : Symbol) : elements N.element close s ts = elements N'.element close s' ts := by
  unfold elements
  refine ite_congr rfl (fun _ => rfl) fun _ => ?_
  refine bind_congr_ok (hN.element ts hn) fun ⟨e, rest₁⟩ he => ?_
  have hlt := hT.element.advances _ _ _ hn he
  exact bind_congr_ok (elementsRest_agree hN hT (by omega) (by omega) (by omega) close) fun _ _ => rfl

theorem entriesRest_agree : entriesRest N s ts = entriesRest N' s' ts := by
  refine steps_induction (motive := fun s s' ts => ts.length ≤ n → entriesRest N s ts = entriesRest N' s' ts)
    (fun s s' hn => ?_) (fun s s' ts _hs _hs' ih hn => ?_) hs hs' hn
  · cases s <;> cases s' <;> rfl
  · unfold entriesRest
    split
    · rename_i hst
      cases hst
      rw [List.length_cons] at hn ih
      refine ite_congr rfl (fun _ => rfl) fun _ => ?_
      refine bind_congr_ok (entry_agree hN hT (by omega)) fun ⟨e, rest₁⟩ he => ?_
      have hlt := entry_length_lt hT (by omega) he
      exact bind_congr_ok (ih _ (by omega) (by omega)) fun _ _ => rfl
    · rename_i hno
      split
      · rename_i hst
        cases hst
        exact absurd rfl (hno _ _ _ rfl)
      · rfl

theorem entries_agree : entries N s ts = entries N' s' ts := by
  unfold entries
  refine ite_congr rfl (fun _ => rfl) fun _ => ?_
  refine bind_congr_ok (entry_agree hN hT hn) fun ⟨e, rest₁⟩ he => ?_
  have hlt := entry_length_lt hT hn he
  exact bind_congr_ok (entriesRest_agree hN hT (by omega) (by omega) (by omega)) fun _ _ => rfl

end

/-! ## Constants, names and what follows them -/

section

variable (hN : NestedAgree n N N') (hT : NestedTakes n N') (hn : ts.length ≤ n + 1) (hs : ts.length ≤ s)
  (hs' : ts.length ≤ s')
include hN hT hn hs hs'

theorem primary_agree : primary N s ts = primary N' s' ts := by
  unfold primary
  split
  -- the nested parsers agree on one token less, as the opening bracket is taken
  case h_5 =>
    rw [List.length_cons] at hn
    exact bind_congr_ok (hN.element _ (by omega)) fun _ _ => rfl
  case h_6 =>
    rw [List.length_cons] at hn hs hs'
    exact bind_congr_ok (elements_agree hN hT (by omega) (by omega) (by omega) _) fun _ _ => rfl
  case h_7 =>
    rw [List.length_cons] at hn hs hs'
    exact bind_congr_ok (entries_agree hN hT (by omega) (by omega) (by omega)) fun _ _ => rfl
  all_goals rfl

theorem postfixRest_agree (target : Expr) : postfixRest N s target ts = postfixRest N' s' target ts := by
  refine steps_induction (motive := fun s s' ts => ts.length ≤ n + 1 → ∀ target,
    postfixRest N s target ts = postfixRest N' s' target ts)
    (fun s s' hn target => ?_) (fun s s' ts hs hs' ih hn target => ?_) hs hs' hn target
  · cases s <;> cases s' <;> rfl
  · unfold postfixRest
    split
    · rename_i hst
      cases hst
      rw [List.length_cons] at hn hs hs' ih
      refine bind_congr_ok rfl fun ⟨name, rest₁⟩ hname => ?_
      obtain ⟨t, -, rfl⟩ := expectName_eq_ok.1 hname
      rw [List.length_cons] at hn hs hs' ih
      exact ih _ (by omega) (by omega) _
    · rename_i hst
      cases hst
      rw [List.length_cons] at hn hs hs' ih
      refine bind_congr_ok (hN.element _ (by omega)) fun ⟨key, rest₁⟩ hk => ?_
      have hlt := hT.element.advances _ _ _ (by omega) hk
      refine bind_congr_ok rfl fun rest₂ hx => ?_
      obtain ⟨t, -, rfl⟩ := expect_eq_ok.1 hx
      rw [List.length_cons] at hlt
      exact ih _ (by omega) (by omega) _
    · rename_i hst
      cases hst
      rw [List.length_cons] at hn hs hs' ih
      refine bind_congr_ok (elements_agree hN hT (by omega) (by omega) (by omega) _) fun ⟨args, rest₁⟩ ha => ?_
      obtain ⟨us, c, rfl, -⟩ := elements_takes hT.element (by omega) ha
      rw [List.length_append, List.length_cons] at hn hs hs' ih
      exact ih _ (by omega) (by omega) _
    · rename_i hdot hbracket hparen
      split
      · rename_i hst
        cases hst
        exact (hdot _ _ _ rfl rfl).elim
      · rename_i hst
        cases hst
        exact (hbracket _ _ _ rfl rfl).elim
      · rename_i hst
        cases hst
        exact (hparen _ _ _ rfl rfl).elim
      · rfl

end

/-! ## All levels -/

theorem chain_agree (hpq : Agree n p q) (hq : Advances n q) (hn : ts.length ≤ n) (hs : ts.length ≤ s)
    (hs' : ts.length ≤ s') : chain l.table p s ts = chain l.table q s' ts := by
  refine bind_congr_ok (hpq ts hn) fun ⟨left, rest⟩ hleft => ?_
  have hlt := hq _ _ _ hn hleft
  exact chainRest_agree hpq (by omega) (by omega) (by omega) hq left

theorem pipeline_agree (hpq : Agree n p q) (hq : Advances n q) (hn : ts.length ≤ n) (hs : ts.length ≤ s)
    (hs' : ts.length ≤ s') : pipeline p s ts = pipeline q s' ts := by
  refine bind_congr_ok (hpq ts hn) fun ⟨value, rest⟩ hv => ?_
  have hlt := hq _ _ _ hn hv
  exact pipelineRest_agree hpq hq (by omega) (by omega) (by omega) value

/-- A level asks the levels below it for the tokens that it has itself, or fewer, and looks into brackets behind a token
at least. So it does the same wherever these do. -/
theorem Level.body_agree {below below' : Level → ExprParser} (l : Level)
    (hN : ∀ k < ts.length, NestedAgree k N N' ∧ NestedTakes k N')
    (hb : ∀ m : Level, m.rank < l.rank → Agree ts.length (below m) (below' m) ∧ Advances ts.length (below' m))
    (hs : ts.length ≤ s) (hs' : ts.length ≤ s') : l.body N below s ts = l.body N' below' s' ts := by
  have hle := Nat.le_refl ts.length
  have chain {m : Level} (hl : l.operand? = some m) : l.body N below s ts = l.body N' below' s' ts := by
    obtain ⟨h, hadvances⟩ := hb m (Level.rank_operand hl)
    rw [Level.body_chain hl, Level.body_chain hl]
    exact chain_agree h hadvances hle hs hs'
  cases l with
  | conditional =>
    obtain ⟨h, hadvances⟩ := hb .disjunction (by decide)
    exact conditional_agree h hle hs hs' hadvances
  | negation => exact fronted_agree (l := .negation) (hb .comparison (by decide)).1 hle hs hs'
  | signed => exact fronted_agree (l := .signed) (hb .postfixed (by decide)).1 hle hs hs'
  | postfixed =>
    obtain ⟨h, hadvances⟩ := hb .primary (by decide)
    refine bind_congr_ok (h ts hle) fun ⟨target, rest⟩ ht => ?_
    have hlt := hadvances _ _ _ hle ht
    obtain ⟨hN, hT⟩ := hN (ts.length - 1) (by omega)
    exact postfixRest_agree hN hT (by omega) (by omega) (by omega) target
  | primary =>
    cases ts with
    | nil => rfl
    | cons t us =>
      obtain ⟨hN, hT⟩ := hN us.length (Nat.lt_succ_self _)
      exact primary_agree hN hT hle hs hs'
  | _ => exact chain rfl

theorem parserAt_advances (hm : k ≤ m) (l : Level) : Advances (k + 1) (parserAt m (m + 1) l) :=
  ((parserAt_takes (nesting_takes m) l).mono (Nat.succ_le_succ hm)).advances

theorem parserAt_agree (hN : NestedAgree k (nesting n) (nesting m)) (hn : k ≤ n) (hm : k ≤ m) (l : Level) :
    Agree (k + 1) (parserAt n (n + 1) l) (parserAt m (m + 1) l) := by
  intro ts hts
  rw [parserAt_eq_body, parserAt_eq_body]
  refine l.body_agree (fun j hj => ?_) (fun l' hl' => ?_) (by omega) (by omega)
  · exact ⟨hN.mono (by omega), (nesting_takes m).mono (by omega)⟩
  · exact ⟨(parserAt_agree hN hn hm l').mono hts, (parserAt_advances hm l').mono hts⟩
  termination_by l.rank

theorem nesting_nil (n : Nat) : (nesting n).key [] = failAt [] .unexpectedEnd ∧
    (nesting n).element [] = failAt [] .unexpectedEnd := by
  cases n <;> exact ⟨rfl, rfl⟩

/-- The number of nesting levels does not matter, if it is not less than the number of tokens. -/
theorem nesting_agree (hn : k ≤ n) (hm : k ≤ m) : NestedAgree k (nesting n) (nesting m) := by
  induction k generalizing n m with
  | zero =>
    have hnil {ts : List ExprToken} (hts : ts.length ≤ 0) : ts = [] := List.eq_nil_of_length_eq_zero (Nat.le_zero.1 hts)
    constructor
    · intro ts hts
      rw [hnil hts, (nesting_nil n).1, (nesting_nil m).1]
    · intro ts hts
      rw [hnil hts, (nesting_nil n).2, (nesting_nil m).2]
  | succ k ih =>
    obtain ⟨n, rfl⟩ := Nat.exists_eq_succ_of_ne_zero (Nat.ne_zero_of_lt hn)
    obtain ⟨m, rfl⟩ := Nat.exists_eq_succ_of_ne_zero (Nat.ne_zero_of_lt hm)
    have hn := Nat.le_of_succ_le_succ hn
    have hm := Nat.le_of_succ_le_succ hm
    have hkey := parserAt_agree (ih hn hm) hn hm .conditional
    -- both are the levels above the nested parsers, and a pipeline is a loop above these
    rw [Nat.succ_eq_add_one, Nat.succ_eq_add_one, nesting_succ, nesting_succ]
    exact ⟨hkey, fun ts hts => pipeline_agree hkey (parserAt_advances hm _) hts (by omega) (by omega)⟩

end TemplateEngine.ExprGrammar

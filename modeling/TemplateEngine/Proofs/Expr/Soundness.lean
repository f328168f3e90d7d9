/-
What the parser takes is a phrase. Each parser is followed on at most as many tokens as there are steps
for its loops: what it takes from their head is derived in the greedy dialect, since a comma after the
arguments of a filter is always followed by a further argument.
-/
import TemplateEngine.Proofs.Expr.Follow

namespace TemplateEngine.ExprGrammar

open ExprParser

variable {l m : Level} {n : Nat}

/-- What a parser takes from at most `n` tokens is a phrase. -/
def Takes (n : Nat) (phrase : List ExprToken → Expr → Prop) (p : ExprParser) : Prop :=
  ∀ (ts : List ExprToken) (e : Expr) (rest : List ExprToken), ts.length ≤ n → p ts = .ok (e, rest) →
    ∃ us, ts = us ++ rest ∧ phrase us e

theorem Takes.imp {p : ExprParser} {phrase phrase' : List ExprToken → Expr → Prop} (h : Takes n phrase p)
    (hp : ∀ us e, phrase us e → phrase' us e) : Takes n phrase' p := by
  intro ts e rest hn hread
  obtain ⟨us, rfl, hd⟩ := h ts e rest hn hread
  exact ⟨us, rfl, hp us e hd⟩

/-- After the arguments of a filter stands no comma. -/
def Closed (withArgs : Bool) (rest : List ExprToken) : Prop :=
  withArgs = true → ∀ t ∈ rest.head?, t.kind ≠ .symbol .comma

/-- What a parser takes from at most `n` tokens is a pipeline that takes in the commas after it. -/
def TakesPipeline (n : Nat) (p : ExprParser) : Prop :=
  ∀ (ts : List ExprToken) (e : Expr) (rest : List ExprToken), ts.length ≤ n → p ts = .ok (e, rest) →
    ∃ us withArgs, ts = us ++ rest ∧ Pipeline .greedy withArgs us e ∧ Closed withArgs rest

theorem Closed.of_false (rest : List ExprToken) : Closed false rest :=
  fun h => nomatch h

theorem Closed.eq_false {withArgs : Bool} {t : ExprToken} {rest : List ExprToken} (h : Closed withArgs (t :: rest))
    (ht : t.kind = .symbol .comma) : withArgs = false := by
  cases withArgs with
  | false => rfl
  | true => exact absurd ht (h rfl t rfl)

theorem length_le_of_append {us rest : List ExprToken} (h : (us ++ rest).length ≤ n) : rest.length ≤ n := by
  rw [List.length_append] at h
  omega

/-! ## Operators -/

theorem chainRest_takes (hl : l.operand? = some m) {operand : ExprParser} (ho : Takes n (Derives .greedy m) operand)
    {steps : Nat} {left e : Expr} {ts rest : List ExprToken} (hn : ts.length ≤ n)
    (h : chainRest l.table operand steps left ts = .ok (e, rest)) :
    ∃ us, ts = us ++ rest ∧ Chain .greedy l left us e := by
  induction steps generalizing left ts with
  | zero =>
    cases h
    exact ⟨[], rfl, .nil⟩
  | succ steps ih =>
    unfold chainRest at h
    split at h
    · cases h
      exact ⟨[], rfl, .nil⟩
    · rename_i join rest₁ ht
      obtain ⟨ops, rfl, hop⟩ := Operator.of_table ht
      obtain ⟨⟨right, rest₂⟩, hr, h₁⟩ := bind_eq_ok.1 h
      obtain ⟨us, rfl, hd⟩ := ho _ _ _ (length_le_of_append hn) hr
      obtain ⟨vs, rfl, hc⟩ := ih (length_le_of_append (length_le_of_append hn)) h₁
      exact ⟨ops ++ (us ++ vs), by simp, .cons hl hop hd hc⟩

theorem chain_takes (hl : l.operand? = some m) {operand : ExprParser} (ho : Takes n (Derives .greedy m) operand)
    (steps : Nat) : Takes n (Derives .greedy l) (chain l.table operand steps) := by
  intro ts e rest hn h
  obtain ⟨⟨left, rest₁⟩, hl', h₁⟩ := bind_eq_ok.1 h
  obtain ⟨us, rfl, hd⟩ := ho _ _ _ hn hl'
  obtain ⟨vs, rfl, hc⟩ := chainRest_takes hl ho (length_le_of_append hn) h₁
  exact ⟨us ++ vs, by simp, .chain hl hd hc⟩

theorem fronted_takes {operand : ExprParser} (ho : Takes n (Derives .greedy l) operand) (steps : Nat) :
    Takes n (Derives .greedy l) (fronted l.front? operand steps) := by
  induction steps with
  | zero => exact ho
  | succ steps ih =>
    intro ts e rest hn h
    unfold fronted at h
    split at h
    · exact ho _ _ _ hn h
    · rename_i wrap rest₁ hf
      obtain ⟨t, rfl, ht⟩ := Front.of_front? hf
      obtain ⟨⟨e', rest₂⟩, he, h₁⟩ := bind_eq_ok.1 h
      cases h₁
      obtain ⟨us, rfl, hd⟩ := ih _ _ _ (Nat.le_of_succ_le hn) he
      exact ⟨t :: us, rfl, .front (ht e') hd⟩

theorem conditional_takes {operand : ExprParser} (ho : Takes n (Derives .greedy .disjunction) operand) (steps : Nat) :
    Takes n (Derives .greedy .conditional) (conditional operand steps) := by
  induction steps with
  | zero =>
    intro ts e rest hn h
    obtain ⟨us, rfl, hd⟩ := ho _ _ _ hn h
    exact ⟨us, rfl, .disjunction hd⟩
  | succ steps ih =>
    intro ts e rest hn h
    unfold conditional at h
    obtain ⟨⟨body, rest₁⟩, hb, h₁⟩ := bind_eq_ok.1 h
    obtain ⟨us, rfl, hbody⟩ := ho _ _ _ hn hb
    have hn₁ := length_le_of_append hn
    dsimp only at h₁
    split at h₁
    · rename_i p rest₂
      obtain ⟨⟨condition, rest₃⟩, hc, h₂⟩ := bind_eq_ok.1 h₁
      obtain ⟨vs, rfl, hcond⟩ := ho _ _ _ (Nat.le_of_succ_le hn₁) hc
      dsimp only at h₂
      split at h₂
      · rename_i q rest₄
        obtain ⟨⟨orElse, rest₅⟩, he, h₃⟩ := bind_eq_ok.1 h₂
        cases h₃
        obtain ⟨ws, rfl, helse⟩ := ih _ _ _ (Nat.le_of_succ_le (length_le_of_append (Nat.le_of_succ_le hn₁))) he
        exact ⟨us ++ ⟨.keyword .if, p⟩ :: (vs ++ ⟨.keyword .else, q⟩ :: ws), by simp, .conditional hbody rfl hcond rfl helse⟩
      · cases h₂
    · cases h₁
      exact ⟨us, rfl, .disjunction hbody⟩

/-! ## Filters -/

/-- With enough steps, the loop over the arguments of a filter stops before a token that is no comma. -/
theorem commaRest_takes {argument : ExprParser} (ha : Takes n (Derives .greedy .conditional) argument) {steps : Nat}
    {ts rest front : List ExprToken} {first : Expr} {es : List Expr} (hn : ts.length ≤ n) (hs : ts.length ≤ steps)
    (hf : Derives .greedy .conditional front first) (h : commaRest argument steps ts = .ok (es, rest)) :
    ∃ us, ts = us ++ rest ∧ Arguments .greedy (front ++ us) (first :: es) ∧ Closed true rest := by
  induction steps generalizing ts front first es with
  | zero =>
    cases h
    -- there were as many steps as tokens, so that none is left and none can be a comma
    have hts : rest = [] := List.eq_nil_of_length_eq_zero (Nat.le_zero.1 hs)
    exact ⟨[], rfl, by rw [List.append_nil]; exact .one hf, fun _ t ht => by rw [hts] at ht; cases ht⟩
  | succ steps ih =>
    unfold commaRest at h
    split at h
    · rename_i s p rest₁ hst
      cases hst
      obtain ⟨⟨e, rest₂⟩, he, h₁⟩ := bind_eq_ok.1 h
      obtain ⟨⟨es', rest₃⟩, hes, h₂⟩ := bind_eq_ok.1 h₁
      cases h₂
      obtain ⟨us, rfl, hd⟩ := ha _ _ _ (Nat.le_of_succ_le hn) he
      have hn₂ := length_le_of_append (Nat.le_of_succ_le hn)
      have hs₂ := length_le_of_append (Nat.le_of_succ_le_succ hs)
      obtain ⟨vs, rfl, hargs, hc⟩ := ih hn₂ hs₂ hd hes
      exact ⟨⟨.symbol .comma, p⟩ :: (us ++ vs), by simp, .cons hf rfl hargs, hc⟩
    · rename_i hno
      cases h
      refine ⟨[], rfl, by rw [List.append_nil]; exact .one hf, fun _ t ht htk => ?_⟩
      obtain ⟨k, p⟩ := t
      obtain ⟨us, rfl⟩ := List.head?_eq_some_iff.1 ht
      cases htk
      exact hno steps p us rfl rfl

theorem pipelineRest_takes {argument : ExprParser} (ha : Takes n (Derives .greedy .conditional) argument)
    {steps : Nat} {before : Bool} {value e : Expr} {ts rest : List ExprToken} (hn : ts.length ≤ n)
    (hs : ts.length ≤ steps) (hb : Closed before ts) (h : pipelineRest argument steps value ts = .ok (e, rest)) :
    ∃ us after, ts = us ++ rest ∧ Stages .greedy before value us after e ∧ Closed after rest := by
  induction steps generalizing value ts before with
  | zero =>
    cases h
    exact ⟨[], before, rfl, .nil, hb⟩
  | succ steps ih =>
    unfold pipelineRest at h
    split at h
    · rename_i s v p rest₁ hst
      cases hst
      obtain ⟨⟨name, rest₂⟩, hname, h₁⟩ := bind_eq_ok.1 h
      obtain ⟨u, hu, rfl⟩ := expectName_eq_ok.1 hname
      obtain ⟨⟨args, rest₃⟩, hargs, h₂⟩ := bind_eq_ok.1 h₁
      have hn₂ := Nat.le_of_succ_le (Nat.le_of_succ_le hn)
      have hs₂ := Nat.le_of_succ_le (Nat.le_of_succ_le_succ hs)
      unfold filterArguments at hargs
      dsimp only at hargs h₂
      split at hargs
      · rename_i q rest₄
        obtain ⟨⟨first, rest₅⟩, hfirst, hargs₁⟩ := bind_eq_ok.1 hargs
        obtain ⟨⟨es, rest₆⟩, hes, hargs₂⟩ := bind_eq_ok.1 hargs₁
        cases hargs₂
        obtain ⟨us, rfl, hd⟩ := ha _ _ _ (Nat.le_of_succ_le hn₂) hfirst
        have hn₄ := length_le_of_append (Nat.le_of_succ_le hn₂)
        have hs₄ := length_le_of_append (Nat.le_of_succ_le hs₂)
        obtain ⟨vs, rfl, hd, hc⟩ := commaRest_takes ha hn₄ hs₄ hd hes
        obtain ⟨ws, after, rfl, hstages, hafter⟩ := ih (length_le_of_append hn₄) (length_le_of_append hs₄) hc h₂
        exact ⟨⟨.symbol .bar, p⟩ :: u :: ⟨.symbol .colon, q⟩ :: ((us ++ vs) ++ ws), after, by simp,
          .withArgs rfl hu rfl hd hstages, hafter⟩
      · cases hargs
        obtain ⟨ws, after, rfl, hstages, hafter⟩ := ih hn₂ hs₂ (.of_false _) h₂
        exact ⟨_ :: u :: ws, after, rfl, .plain rfl hu hstages, hafter⟩
    · cases h
      exact ⟨[], before, rfl, .nil, hb⟩

theorem pipeline_takes {argument : ExprParser} (ha : Takes n (Derives .greedy .conditional) argument) :
    TakesPipeline n (pipeline argument n) := by
  intro ts e rest hn h
  obtain ⟨⟨value, rest₁⟩, hv, h₁⟩ := bind_eq_ok.1 h
  obtain ⟨us, rfl, hd⟩ := ha _ _ _ hn hv
  have hn₁ := length_le_of_append hn
  obtain ⟨vs, after, rfl, hs, hc⟩ := pipelineRest_takes ha hn₁ hn₁ (.of_false _) h₁
  exact ⟨us ++ vs, after, by simp, .mk hd hs, hc⟩

/-! ## Brackets -/

theorem Elements.cons {d : Dialect} {withArgs : Bool} {ts us : List ExprToken} {t : ExprToken} {e e' : Expr}
    {es : List Expr} (h : Pipeline d withArgs ts e) (hd : d.item withArgs) (ht : t.kind = .symbol .comma)
    (hr : Elements d us (e' :: es)) : Elements d (ts ++ t :: us) (e :: e' :: es) := by
  cases hr with
  | items hr => exact .items (.cons h hd ht hr)
  | @trailing us c last _ hr hd' hc =>
    have hi := Elements.trailing (.cons h hd ht hr) hd' hc
    rwa [List.append_assoc] at hi

theorem Pairs.cons {d : Dialect} {withArgs : Bool} {ts us vs : List ExprToken} {t u : ExprToken}
    {key value : Expr} {p : Expr × Expr} {es : List (Expr × Expr)} (hk : Derives d .conditional ts key)
    (ht : t.kind = .symbol .colon) (hv : Pipeline d withArgs us value) (hd : d.entry withArgs)
    (hu : u.kind = .symbol .comma) (hr : Pairs d vs (p :: es)) :
    Pairs d (ts ++ t :: (us ++ u :: vs)) ((key, value) :: p :: es) := by
  cases hr with
  | entries hr => exact .entries (.cons hk ht hv hd hu hr)
  | @trailing vs c last _ hr hd' hc =>
    have hi := Pairs.trailing (.cons hk ht hv hd hu hr) hd' hc
    rwa [List.append_assoc, List.cons_append, List.append_assoc] at hi

theorem elementsRest_takes {element : ExprParser} (he : TakesPipeline n element) {close : Symbol} {steps : Nat}
    {withArgs : Bool} {front ts rest : List ExprToken} {first : Expr} {es : List Expr} (hn : ts.length ≤ n)
    (hf : Pipeline .greedy withArgs front first) (hc : Closed withArgs ts)
    (h : elementsRest element close steps ts = .ok (es, rest)) :
    ∃ us, ts = us ++ rest ∧ Elements .greedy (front ++ us) (first :: es) := by
  induction steps generalizing ts withArgs front first es with
  | zero =>
    cases h
    exact ⟨[], rfl, by rw [List.append_nil]; exact .items (.one hf)⟩
  | succ steps ih =>
    unfold elementsRest at h
    split at h
    · rename_i s p rest₁ hst
      cases hst
      -- had the element ended with arguments, they would have gone on over this comma
      have hw := hc.eq_false rfl
      split at h
      · cases h
        exact ⟨[_], rfl, .trailing (.one hf) hw rfl⟩
      · obtain ⟨⟨e, rest₂⟩, hp, h₁⟩ := bind_eq_ok.1 h
        obtain ⟨⟨es', rest₃⟩, hes, h₂⟩ := bind_eq_ok.1 h₁
        cases h₂
        obtain ⟨us, withArgs', rfl, hd, hc'⟩ := he _ _ _ (Nat.le_of_succ_le hn) hp
        obtain ⟨vs, rfl, hr⟩ := ih (length_le_of_append (Nat.le_of_succ_le hn)) hd hc' hes
        exact ⟨⟨.symbol .comma, p⟩ :: (us ++ vs), by simp, .cons hf hw rfl hr⟩
    · cases h
      exact ⟨[], rfl, by rw [List.append_nil]; exact .items (.one hf)⟩

theorem elements_takes {element : ExprParser} (he : TakesPipeline n element) {close : Symbol} {steps : Nat}
    {ts rest : List ExprToken} {es : List Expr} (hn : ts.length ≤ n)
    (h : elements element close steps ts = .ok (es, rest)) :
    ∃ us c, ts = us ++ c :: rest ∧ c.kind = .symbol close ∧ Elements .greedy us es := by
  unfold elements at h
  split at h
  · rename_i hc
    obtain ⟨t, us, ht, rfl⟩ := head?_kind_eq.1 hc
    cases h
    exact ⟨[], t, rfl, ht, .nil⟩
  · obtain ⟨⟨e, rest₁⟩, hp, h₁⟩ := bind_eq_ok.1 h
    obtain ⟨⟨es', rest₂⟩, hes, h₂⟩ := bind_eq_ok.1 h₁
    obtain ⟨rest₃, hx, h₃⟩ := bind_eq_ok.1 h₂
    cases h₃
    obtain ⟨c, hc, rfl⟩ := expect_eq_ok.1 hx
    obtain ⟨us, withArgs, rfl, hd, hclosed⟩ := he _ _ _ hn hp
    obtain ⟨vs, rfl, hr⟩ := elementsRest_takes he (length_le_of_append hn) hd hclosed hes
    exact ⟨us ++ vs, c, by simp, hc, hr⟩

/-- The parsers of what stands in brackets take phrases from at most `n` tokens. -/
structure NestedTakes (n : Nat) (nested : Nested) : Prop where
  key : Takes n (Derives .greedy .conditional) nested.key
  element : TakesPipeline n nested.element

theorem entry_takes {nested : Nested} (hN : NestedTakes n nested) {ts rest : List ExprToken} {p : Expr × Expr}
    (hn : ts.length ≤ n) (h : entry nested ts = .ok (p, rest)) :
    ∃ us t vs withArgs, ts = us ++ t :: (vs ++ rest) ∧ Derives .greedy .conditional us p.1 ∧
      t.kind = .symbol .colon ∧ Pipeline .greedy withArgs vs p.2 ∧ Closed withArgs rest := by
  unfold entry at h
  obtain ⟨⟨key, rest₁⟩, hk, h₁⟩ := bind_eq_ok.1 h
  obtain ⟨rest₂, hx, h₂⟩ := bind_eq_ok.1 h₁
  obtain ⟨⟨value, rest₃⟩, hv, h₃⟩ := bind_eq_ok.1 h₂
  cases h₃
  obtain ⟨us, rfl, hd⟩ := hN.key _ _ _ hn hk
  obtain ⟨t, ht, rfl⟩ := expect_eq_ok.1 hx
  obtain ⟨vs, withArgs, rfl, hp, hc⟩ := hN.element _ _ _ (Nat.le_of_succ_le (length_le_of_append hn)) hv
  exact ⟨us, t, vs, withArgs, rfl, hd, ht, hp, hc⟩

theorem entriesRest_takes {nested : Nested} (hN : NestedTakes n nested) {steps : Nat} {withArgs : Bool}
    {t : ExprToken} {us vs ts rest : List ExprToken} {key value : Expr} {es : List (Expr × Expr)} (hn : ts.length ≤ n)
    (hk : Derives .greedy .conditional us key) (ht : t.kind = .symbol .colon) (hv : Pipeline .greedy withArgs vs value)
    (hc : Closed withArgs ts) (h : entriesRest nested steps ts = .ok (es, rest)) :
    ∃ ws, ts = ws ++ rest ∧ Pairs .greedy (us ++ t :: (vs ++ ws)) ((key, value) :: es) := by
  induction steps generalizing ts withArgs t us vs key value es with
  | zero =>
    cases h
    exact ⟨[], rfl, by rw [List.append_nil]; exact .entries (.one hk ht hv)⟩
  | succ steps ih =>
    unfold entriesRest at h
    split at h
    · rename_i s p rest₁ hst
      cases hst
      have hw := hc.eq_false rfl
      split at h
      · cases h
        have hp := Pairs.trailing (t := ⟨.symbol .comma, p⟩) (.one hk ht hv) hw rfl
        rw [List.append_assoc] at hp
        exact ⟨[_], rfl, hp⟩
      · obtain ⟨⟨kv, rest₂⟩, he, h₁⟩ := bind_eq_ok.1 h
        obtain ⟨⟨es', rest₃⟩, hes, h₂⟩ := bind_eq_ok.1 h₁
        cases h₂
        obtain ⟨us', t', vs', withArgs', rfl, hk', ht', hv', hc'⟩ := entry_takes hN (Nat.le_of_succ_le hn) he
        have hn' := length_le_of_append (Nat.le_of_succ_le (length_le_of_append (Nat.le_of_succ_le hn)))
        obtain ⟨ws, rfl, hr⟩ := ih hn' hk' ht' hv' hc' hes
        exact ⟨⟨.symbol .comma, p⟩ :: (us' ++ t' :: (vs' ++ ws)), by simp, .cons hk ht hv hw rfl hr⟩
    · cases h
      exact ⟨[], rfl, by rw [List.append_nil]; exact .entries (.one hk ht hv)⟩

theorem entries_takes {nested : Nested} (hN : NestedTakes n nested) {steps : Nat} {ts rest : List ExprToken}
    {es : List (Expr × Expr)} (hn : ts.length ≤ n) (h : entries nested steps ts = .ok (es, rest)) :
    ∃ us c, ts = us ++ c :: rest ∧ c.kind = .symbol .braceClose ∧ Pairs .greedy us es := by
  unfold entries at h
  split at h
  · rename_i hc
    obtain ⟨t, us, ht, rfl⟩ := head?_kind_eq.1 hc
    cases h
    exact ⟨[], t, rfl, ht, .nil⟩
  · obtain ⟨⟨⟨key, value⟩, rest₁⟩, he, h₁⟩ := bind_eq_ok.1 h
    obtain ⟨⟨es', rest₂⟩, hes, h₂⟩ := bind_eq_ok.1 h₁
    obtain ⟨rest₃, hx, h₃⟩ := bind_eq_ok.1 h₂
    cases h₃
    obtain ⟨c, hc, rfl⟩ := expect_eq_ok.1 hx
    obtain ⟨us, t, vs, withArgs, rfl, hk, ht, hv, hclosed⟩ := entry_takes hN hn he
    have hn' := length_le_of_append (Nat.le_of_succ_le (length_le_of_append hn))
    obtain ⟨ws, rfl, hr⟩ := entriesRest_takes hN hn' hk ht hv hclosed hes
    exact ⟨us ++ t :: (vs ++ ws), c, by simp, hc, hr⟩

/-! ## Constants, names and what follows them -/

theorem primary_takes {nested : Nested} (hN : NestedTakes n nested) (steps : Nat) :
    Takes (n + 1) (Derives .greedy .primary) (primary nested steps) := by
  intro ts e rest hn h
  unfold primary at h
  split at h
  · obtain ⟨v, hv, h₁⟩ := bind_eq_ok.1 h
    cases h₁
    obtain ⟨hr, rfl⟩ := numberLiteral_eq_ok.1 hv
    exact ⟨[_], rfl, .number rfl hr⟩
  · cases h
    exact ⟨[_], rfl, .str rfl⟩
  · cases h
    exact ⟨[_], rfl, .name rfl⟩
  · split at h
    · rename_i hk
      cases h
      exact ⟨[_], rfl, .constant rfl (constant?_eq_some.1 hk)⟩
    · cases h
  · rename_i p rest₀
    obtain ⟨⟨e', rest₁⟩, he, h₁⟩ := bind_eq_ok.1 h
    obtain ⟨rest₂, hx, h₂⟩ := bind_eq_ok.1 h₁
    cases h₂
    obtain ⟨us, withArgs, rfl, hp, -⟩ := hN.element _ _ _ (Nat.le_of_succ_le_succ hn) he
    obtain ⟨c, hc, rfl⟩ := expect_eq_ok.1 hx
    exact ⟨⟨.symbol .parenOpen, p⟩ :: (us ++ [c]), by simp, .group rfl hp hc⟩
  · rename_i p rest₀
    obtain ⟨⟨es, rest₁⟩, hes, h₁⟩ := bind_eq_ok.1 h
    cases h₁
    obtain ⟨us, c, rfl, hc, hes⟩ := elements_takes hN.element (Nat.le_of_succ_le_succ hn) hes
    exact ⟨⟨.symbol .bracketOpen, p⟩ :: (us ++ [c]), by simp, .list rfl hes hc⟩
  · rename_i p rest₀
    obtain ⟨⟨es, rest₁⟩, hes, h₁⟩ := bind_eq_ok.1 h
    cases h₁
    obtain ⟨us, c, rfl, hc, hes⟩ := entries_takes hN (Nat.le_of_succ_le_succ hn) hes
    exact ⟨⟨.symbol .braceOpen, p⟩ :: (us ++ [c]), by simp, .dict rfl hes hc⟩
  all_goals cases h

theorem postfixRest_takes {nested : Nested} (hN : NestedTakes n nested) {steps : Nat} {target e : Expr}
    {ts rest : List ExprToken} (hn : ts.length ≤ n + 1) (h : postfixRest nested steps target ts = .ok (e, rest)) :
    ∃ us, ts = us ++ rest ∧ Suffixes .greedy target us e := by
  induction steps generalizing target ts with
  | zero =>
    cases h
    exact ⟨[], rfl, .nil⟩
  | succ steps ih =>
    unfold postfixRest at h
    split at h
    · rename_i s v p rest₀ hst
      cases hst
      obtain ⟨⟨name, rest₁⟩, hname, h₁⟩ := bind_eq_ok.1 h
      obtain ⟨u, hu, rfl⟩ := expectName_eq_ok.1 hname
      obtain ⟨us, rfl, hs⟩ := ih (Nat.le_of_succ_le (Nat.le_of_succ_le hn)) h₁
      exact ⟨_ :: u :: us, rfl, .member rfl hu hs⟩
    · rename_i s v p rest₀ hst
      cases hst
      obtain ⟨⟨key, rest₁⟩, hk, h₁⟩ := bind_eq_ok.1 h
      obtain ⟨rest₂, hx, h₂⟩ := bind_eq_ok.1 h₁
      obtain ⟨us, withArgs, rfl, hp, -⟩ := hN.element _ _ _ (Nat.le_of_succ_le_succ hn) hk
      obtain ⟨c, hc, rfl⟩ := expect_eq_ok.1 hx
      obtain ⟨vs, rfl, hs⟩ := ih (Nat.le_of_succ_le (length_le_of_append (Nat.le_of_succ_le hn))) h₂
      exact ⟨⟨.symbol .bracketOpen, p⟩ :: (us ++ c :: vs), by simp, .item rfl hp hc hs⟩
    · rename_i s v p rest₀ hst
      cases hst
      obtain ⟨⟨args, rest₁⟩, ha, h₁⟩ := bind_eq_ok.1 h
      obtain ⟨us, c, rfl, hc, hes⟩ := elements_takes hN.element (Nat.le_of_succ_le_succ hn) ha
      obtain ⟨vs, rfl, hs⟩ := ih (Nat.le_of_succ_le (length_le_of_append (Nat.le_of_succ_le hn))) h₁
      exact ⟨⟨.symbol .parenOpen, p⟩ :: (us ++ c :: vs), by simp, .call rfl hes hc hs⟩
    · cases h
      exact ⟨[], rfl, .nil⟩

/-! ## All levels -/

theorem Level.body_takes {nested : Nested} {below : Level → ExprParser} (hN : NestedTakes n nested) (l : Level)
    (hb : ∀ m : Level, m.rank < l.rank → Takes (n + 1) (Derives .greedy m) (below m)) (steps : Nat) :
    Takes (n + 1) (Derives .greedy l) (l.body nested below steps) := by
  have chain {m : Level} (hl : l.operand? = some m) : Takes (n + 1) (Derives .greedy l) (l.body nested below steps) := by
    rw [Level.body_chain hl]
    exact chain_takes hl (hb m (Level.rank_operand hl)) steps
  cases l with
  | conditional => exact conditional_takes (hb .disjunction (by decide)) steps
  | negation => exact fronted_takes ((hb .comparison (by decide)).imp fun _ _ => .comparison) steps
  | signed => exact fronted_takes ((hb .postfixed (by decide)).imp fun _ _ => .postfixed) steps
  | postfixed =>
    intro ts e rest hn h
    obtain ⟨⟨target, rest₁⟩, ht, h₁⟩ := bind_eq_ok.1 h
    obtain ⟨us, rfl, hd⟩ := hb .primary (by decide) _ _ _ hn ht
    obtain ⟨vs, rfl, hs⟩ := postfixRest_takes hN (length_le_of_append hn) h₁
    exact ⟨us ++ vs, by simp, .suffixes hd hs⟩
  | primary => exact primary_takes hN steps
  | _ => exact chain rfl

/-- By induction on the levels, from the tightest one on. -/
theorem parserAt_takes (hN : NestedTakes n (nesting n)) (l : Level) :
    Takes (n + 1) (Derives .greedy l) (parserAt n (n + 1) l) := by
  rw [parserAt_eq_body]
  exact l.body_takes hN (fun m hm => parserAt_takes hN m) (n + 1)
  termination_by l.rank

/-- By induction on the depth of brackets: what stands inside one pair more is read by the parsers before. -/
theorem nesting_takes : ∀ n, NestedTakes n (nesting n)
  | 0 => ⟨fun _ _ _ _ h => (nomatch h), fun _ _ _ _ h => (nomatch h)⟩
  | n + 1 => by
    have hk := parserAt_takes (nesting_takes n) .conditional
    rw [nesting_succ]
    exact ⟨hk, pipeline_takes hk⟩

end TemplateEngine.ExprGrammar

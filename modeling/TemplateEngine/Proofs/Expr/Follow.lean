/-
How phrases start and end, and what goes on with them. A level is told by the first token of its
expressions from the operators that stand in front and from closing brackets, and no expression ends with
a comma. What stands after a phrase ends a level when it goes on with no level as tight as that.
-/
import TemplateEngine.Proofs.Expr.Parts

namespace TemplateEngine.ExprGrammar

open ExprParser

variable {d : Dialect} {l m : Level} {n : Nat} {ts us rest : List ExprToken} {t : ExprToken} {e : Expr}

/-- The levels counted from the tightest one. -/
def Level.rank : Level → Nat
  | primary => 0
  | postfixed => 1
  | signed => 2
  | product => 3
  | sum => 4
  | comparison => 5
  | negation => 6
  | conjunction => 7
  | disjunction => 8
  | conditional => 9

theorem Level.rank_operand (h : l.operand? = some m) : m.rank < l.rank := by
  cases l <;> cases h <;> decide

theorem Level.eq_of_rank_eq (h : l.rank = m.rank) : l = m := by
  cases l <;> cases m <;> first | rfl | cases h

/-- The next tighter level. -/
def Level.below? : Level → Option Level
  | conditional => some disjunction
  | disjunction => some conjunction
  | conjunction => some negation
  | negation => some comparison
  | comparison => some sum
  | sum => some product
  | product => some signed
  | signed => some postfixed
  | postfixed => some primary
  | primary => none

theorem Level.exists_below (h : m.rank = n + 1) : ∃ k, m.below? = some k ∧ k.rank = n := by
  cases m <;> first | cases h; exact ⟨_, rfl, rfl⟩ | cases h

/-- An expression is one of the next looser level. -/
theorem Derives.raise (hl : l.below? = some m) (h : Derives d m ts e) : Derives d l ts e := by
  have operand (hl : l.operand? = some m) : Derives d l ts e := by
    have hc := Derives.chain hl h .nil
    rwa [List.append_nil] at hc
  cases l <;> cases hl
  case conditional => exact .disjunction h
  case negation => exact .comparison h
  case signed => exact .postfixed h
  case postfixed =>
    have hs := Derives.suffixes h .nil
    rwa [List.append_nil] at hs
  all_goals exact operand rfl

theorem Derives.loosen (h : Derives d l ts e) (hr : l.rank ≤ m.rank) : Derives d m ts e := by
  obtain ⟨n, hn⟩ := Nat.exists_eq_add_of_le hr
  induction n generalizing m with
  | zero => rwa [← Level.eq_of_rank_eq hn.symm]
  | succ n ih =>
    obtain ⟨k, hk, hrank⟩ := Level.exists_below (hn.trans (Nat.add_assoc _ n 1).symm)
    exact .raise hk (ih (by omega) hrank)

/-! ## The first token -/

/-- The tightest level of the expressions that start with a token. -/
def starter : ExprTokenKind → Option Level
  | .number _ | .str _ | .name _ => some .primary
  | .symbol .parenOpen | .symbol .bracketOpen | .symbol .braceOpen => some .primary
  | .symbol .minus | .symbol .plus => some .signed
  | .symbol .bang | .keyword .not => some .negation
  | .keyword .true | .keyword .false | .keyword .null | .keyword .none => some .primary
  | _ => none

/-- The kinds of tokens that an expression of a level starts with. -/
def Level.Starts (l : Level) (k : ExprTokenKind) : Prop :=
  ∃ m ∈ starter k, m.rank ≤ l.rank

theorem Level.Starts.mono {k : ExprTokenKind} (h : m.Starts k) (hm : m.rank ≤ l.rank) : l.Starts k := by
  obtain ⟨s, hs, hr⟩ := h
  exact ⟨s, hs, Nat.le_trans hr hm⟩

/-- A token without a tightest level starts no expression. -/
theorem Level.Starts.of_none {k : ExprTokenKind} (h : starter k = none) : ¬ l.Starts k := by
  rintro ⟨s, hs, -⟩
  rw [h] at hs
  cases hs

/-- An operator in front starts its own level and no tighter one. -/
theorem Front.starts_iff {e' : Expr} {k : ExprTokenKind} (h : Front l k e e') : m.Starts k ↔ l.rank ≤ m.rank := by
  have hs : starter k = some l := by cases h <;> rfl
  simp only [Level.Starts, hs, Option.mem_some_iff, exists_eq_left']

theorem Derives.starts {l : Level} {ts : List ExprToken} {e : Expr} :
    Derives d l ts e → ∃ t us, ts = t :: us ∧ l.Starts t.kind
  | .disjunction h => by
    obtain ⟨t, us, rfl, ht⟩ := h.starts
    exact ⟨t, us, rfl, ht.mono (by decide)⟩
  | .conditional hb _ _ _ _ => by
    obtain ⟨t, us, rfl, ht⟩ := hb.starts
    exact ⟨t, _, rfl, ht.mono (by decide)⟩
  | .chain hl h _ => by
    obtain ⟨t, us, rfl, ht⟩ := h.starts
    exact ⟨t, _, rfl, ht.mono (Nat.le_of_lt (Level.rank_operand hl))⟩
  | .comparison h => by
    obtain ⟨t, us, rfl, ht⟩ := h.starts
    exact ⟨t, us, rfl, ht.mono (by decide)⟩
  | .postfixed h => by
    obtain ⟨t, us, rfl, ht⟩ := h.starts
    exact ⟨t, us, rfl, ht.mono (by decide)⟩
  | .front ht _ => ⟨_, _, rfl, ht.starts_iff.2 (Nat.le_refl _)⟩
  | .suffixes h _ => by
    obtain ⟨t, us, rfl, ht⟩ := h.starts
    exact ⟨t, _, rfl, ht.mono (by decide)⟩
  | .number ht _ => ⟨_, _, rfl, .primary, by rw [ht]; rfl, Nat.le_refl _⟩
  | .str ht => ⟨_, _, rfl, .primary, by rw [ht]; rfl, Nat.le_refl _⟩
  | .constant ht hk => ⟨_, _, rfl, .primary, by rw [ht]; cases hk <;> rfl, Nat.le_refl _⟩
  | .name ht => ⟨_, _, rfl, .primary, by rw [ht]; rfl, Nat.le_refl _⟩
  | .group ho _ _ => ⟨_, _, rfl, .primary, by rw [ho]; rfl, Nat.le_refl _⟩
  | .list ho _ _ => ⟨_, _, rfl, .primary, by rw [ho]; rfl, Nat.le_refl _⟩
  | .dict ho _ _ => ⟨_, _, rfl, .primary, by rw [ho]; rfl, Nat.le_refl _⟩

theorem Pipeline.starts {withArgs : Bool} (h : Pipeline d withArgs ts e) :
    ∃ t us, ts = t :: us ∧ Level.conditional.Starts t.kind := by
  obtain ⟨h, -⟩ := h
  obtain ⟨t, us, rfl, ht⟩ := h.starts
  exact ⟨t, _, rfl, ht⟩

theorem Arguments.starts {es : List Expr} (h : Arguments d ts es) :
    ∃ t us, ts = t :: us ∧ Level.conditional.Starts t.kind := by
  cases h with
  | one h => exact h.starts
  | cons h =>
    obtain ⟨t, us, rfl, ht⟩ := h.starts
    exact ⟨t, _, rfl, ht⟩

theorem Items.starts {last : Bool} {es : List Expr} (h : Items d last ts es) :
    ∃ t us, ts = t :: us ∧ Level.conditional.Starts t.kind := by
  cases h with
  | one h => exact h.starts
  | cons h =>
    obtain ⟨t, us, rfl, ht⟩ := h.starts
    exact ⟨t, _, rfl, ht⟩

theorem Entries.starts {last : Bool} {es : List (Expr × Expr)} (h : Entries d last ts es) :
    ∃ t us, ts = t :: us ∧ Level.conditional.Starts t.kind := by
  cases h with
  | one h =>
    obtain ⟨t, us, rfl, ht⟩ := h.starts
    exact ⟨t, _, rfl, ht⟩
  | cons h =>
    obtain ⟨t, us, rfl, ht⟩ := h.starts
    exact ⟨t, _, rfl, ht⟩

/-! ## The last token -/

/-- The kinds of tokens that an expression ends with. -/
def finishes : ExprTokenKind → Bool
  | .number _ | .str _ | .name _ => true
  | .symbol .parenClose | .symbol .bracketClose | .symbol .braceClose => true
  | .keyword .true | .keyword .false | .keyword .null | .keyword .none => true
  | _ => false

/-- The last token, if there is one, is one that an expression ends with. -/
def Finished (ts : List ExprToken) : Prop :=
  ∀ t ∈ ts.getLast?, finishes t.kind = true

theorem Finished.nil : Finished [] :=
  fun _ h => nomatch h

theorem Finished.singleton (h : finishes t.kind = true) : Finished [t] := by
  intro u hu
  cases hu
  exact h

theorem Finished.append (h : Finished ts) (h' : Finished us) : Finished (ts ++ us) := by
  intro t ht
  rw [List.getLast?_append] at ht
  cases hu : us.getLast? with
  | none => exact h t (by rw [hu] at ht; exact ht)
  | some u => exact h' t (by rw [hu] at ht ⊢; exact ht)

/-- Tokens before the last ones do not matter. -/
theorem Finished.append_left (hne : us ≠ []) (h : Finished us) (ts : List ExprToken) : Finished (ts ++ us) := by
  intro t ht
  rw [List.getLast?_append, List.getLast?_eq_some_getLast hne] at ht
  exact h t (by rw [List.getLast?_eq_some_getLast hne]; exact ht)

theorem Finished.cons (hne : us ≠ []) (h : Finished us) (t : ExprToken) : Finished (t :: us) :=
  h.append_left hne [t]

theorem Finished.close {s : Symbol} (h : t.kind = .symbol s) (hs : finishes (.symbol s) = true)
    (ts : List ExprToken) : Finished (ts ++ [t]) :=
  (Finished.singleton (by rw [h]; exact hs)).append_left (List.cons_ne_nil _ _) ts

theorem Derives.ne_nil (h : Derives d l ts e) : ts ≠ [] := by
  obtain ⟨t, us, rfl, -⟩ := h.starts
  exact List.cons_ne_nil t us

theorem Pipeline.ne_nil {withArgs : Bool} (h : Pipeline d withArgs ts e) : ts ≠ [] := by
  obtain ⟨t, us, rfl, -⟩ := h.starts
  exact List.cons_ne_nil t us

theorem Items.ne_nil {last : Bool} {es : List Expr} (h : Items d last ts es) : ts ≠ [] := by
  obtain ⟨t, us, rfl, -⟩ := h.starts
  exact List.cons_ne_nil t us

theorem Entries.ne_nil {last : Bool} {es : List (Expr × Expr)} (h : Entries d last ts es) : ts ≠ [] := by
  obtain ⟨t, us, rfl, -⟩ := h.starts
  exact List.cons_ne_nil t us

mutual

theorem Derives.finished {l : Level} {ts : List ExprToken} {e : Expr} : Derives d l ts e → Finished ts
  | .disjunction h => h.finished
  | .conditional _ _ _ _ ho =>
    ((ho.finished.cons ho.ne_nil _).append_left (List.cons_ne_nil _ _) _ |>.cons (by simp) _).append_left
      (List.cons_ne_nil _ _) _
  | .chain _ h hr => h.finished.append hr.finished
  | .comparison h => h.finished
  | .postfixed h => h.finished
  | .front _ h => h.finished.cons h.ne_nil _
  | .suffixes h hs => h.finished.append hs.finished
  | .number ht _ => .singleton (by rw [ht]; rfl)
  | .str ht => .singleton (by rw [ht]; rfl)
  | .constant ht hk => .singleton (by rw [ht]; cases hk <;> rfl)
  | .name ht => .singleton (by rw [ht]; rfl)
  | @Derives.group _ o _ ts _ _ _ _ hc => .close hc rfl (o :: ts)
  | @Derives.list _ o _ ts _ _ _ hc => .close hc rfl (o :: ts)
  | @Derives.dict _ o _ ts _ _ _ hc => .close hc rfl (o :: ts)

theorem Chain.finished {l : Level} {left : Expr} {ts : List ExprToken} {e : Expr} : Chain d l left ts e → Finished ts
  | .nil => .nil
  | .cons _ _ h hr => (h.finished.append hr.finished).append_left (by simp [h.ne_nil]) _

theorem Suffixes.finished {target : Expr} {ts : List ExprToken} {e : Expr} : Suffixes d target ts e → Finished ts
  | .nil => .nil
  | .member (t := t) _ hu hs => .append (.append_left (by simp) (.singleton (by rw [hu]; rfl)) [t]) hs.finished
  | @Suffixes.item _ o _ ts _ _ _ _ _ _ _ hc hs => by
    have h := (Finished.close hc rfl (o :: ts)).append hs.finished
    rwa [List.append_assoc] at h
  | @Suffixes.call _ o _ ts _ _ _ _ _ _ hc hs => by
    have h := (Finished.close hc rfl (o :: ts)).append hs.finished
    rwa [List.append_assoc] at h

end

theorem Arguments.finished {ts : List ExprToken} {es : List Expr} : Arguments d ts es → ts ≠ [] ∧ Finished ts
  | .one h => ⟨h.ne_nil, h.finished⟩
  | .cons _ _ hr => by
    obtain ⟨hne, hf⟩ := hr.finished
    exact ⟨by simp, (hf.cons hne _).append_left (List.cons_ne_nil _ _) _⟩

theorem Stages.finished {before after : Bool} {value : Expr} {ts : List ExprToken} {e : Expr} :
    Stages d before value ts after e → Finished ts
  | .nil => .nil
  | .plain (t := t) _ hu hs => .append (.append_left (by simp) (.singleton (by rw [hu]; rfl)) [t]) hs.finished
  | .withArgs (t := t) (u := u) (c := c) _ _ _ h hs => by
    obtain ⟨hne, hf⟩ := h.finished
    exact (hf.append hs.finished).append_left (by simp [hne]) [t, u, c]

theorem Pipeline.finished {withArgs : Bool} (h : Pipeline d withArgs ts e) : Finished ts := by
  obtain ⟨h, hs⟩ := h
  exact h.finished.append hs.finished

/-! ## What follows -/

/-- The level of an expression that a token after it goes on with. -/
def continues : ExprTokenKind → Option Level
  | .keyword .if => some .conditional
  | .keyword .or | .symbol .bars => some .disjunction
  | .keyword .and | .symbol .ampersands => some .conjunction
  | .symbol .eq | .symbol .ne | .symbol .lt | .symbol .le | .symbol .gt | .symbol .ge => some .comparison
  | .keyword .in | .keyword .not => some .comparison
  | .symbol .plus | .symbol .minus | .symbol .tilde => some .sum
  | .symbol .times | .symbol .div | .symbol .floorDiv | .symbol .percent => some .product
  | .symbol .dot | .symbol .bracketOpen | .symbol .parenOpen => some .postfixed
  | _ => none

/-- The tokens after an expression of a level do not go on with it. -/
def Ends (l : Level) (rest : List ExprToken) : Prop :=
  ∀ t ∈ rest.head?, ∀ m ∈ continues t.kind, l.rank < m.rank

theorem Ends.of_continues {o : Option Level} (h : continues t.kind = o) (ho : ∀ m ∈ o, l.rank < m.rank)
    (rest : List ExprToken) : Ends l (t :: rest) := by
  intro u hu m hm
  cases hu
  exact ho m (by rwa [← h])

/-- A token that goes on with no expression ends all levels. -/
theorem Ends.of_none (h : continues t.kind = none) (rest : List ExprToken) : Ends l (t :: rest) :=
  .of_continues h (fun _ hm => nomatch hm) rest

theorem Ends.mono (h : Ends l rest) (hm : m.rank ≤ l.rank) : Ends m rest :=
  fun t ht k hk => Nat.lt_of_le_of_lt hm (h t ht k hk)

/-- A token that goes on with a level does not stand after an expression of it. -/
theorem Ends.not_continues (h : Ends l (t :: rest)) : continues t.kind ≠ some l :=
  fun hc => Nat.lt_irrefl _ (h t rfl l hc)

theorem Operator.continues {ops : List ExprToken} {join : Expr → Expr → Expr} (h : Operator l (ops.map (·.kind)) join) :
    ∃ t us, ops = t :: us ∧ ExprGrammar.continues t.kind = some l := by
  obtain ⟨⟨k, p⟩, rfl⟩ | ⟨⟨k, p⟩, ⟨k', p'⟩, rfl⟩ := h.tokens
  · exact ⟨_, _, rfl, by cases h <;> rfl⟩
  · exact ⟨_, _, rfl, by cases h; rfl⟩

/-- The operator after an operand ends the operand. -/
theorem Operator.ends {ops : List ExprToken} {join : Expr → Expr → Expr} (h : Operator l (ops.map (·.kind)) join)
    (hl : l.operand? = some m) (rest : List ExprToken) : Ends m (ops ++ rest) := by
  obtain ⟨t, us, rfl, ht⟩ := h.continues
  refine .of_continues ht ?_ _
  rintro k ⟨⟩
  exact Level.rank_operand hl

theorem Ends.table (h : Ends l rest) : l.table rest = none := by
  cases hr : l.table rest with
  | none => rfl
  | some p =>
    obtain ⟨join, rest'⟩ := p
    obtain ⟨ops, rfl, ho⟩ := Operator.of_table hr
    obtain ⟨t, us, rfl, ht⟩ := ho.continues
    exact absurd ht h.not_continues

/-- Between an operand and the operator after it nothing goes on with the operand. -/
theorem Chain.ends {left : Expr} (h : Chain d l left ts e) (hl : l.operand? = some m) (hr : Ends l rest) :
    Ends m (ts ++ rest) := by
  cases h with
  | nil => exact hr.mono (Nat.le_of_lt (Level.rank_operand hl))
  | @cons _ _ ops ts us _ _ _ _ _ ho _ _ =>
    rw [List.append_assoc]
    exact ho.ends hl _

end TemplateEngine.ExprGrammar

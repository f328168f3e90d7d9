/-
Brackets in phrases. Each phrase closes the square brackets that it opens and no others. So an expression that starts
with a list is that list alone where it ends with the bracket that closes the first one, and another kind of expression
where it goes on.
-/
import TemplateEngine.Proofs.Expr.Reading

namespace TemplateEngine.ExprGrammar

variable {d : Dialect} {l : Level} {ts us : List ExprToken} {t o c : ExprToken} {e : Expr}

/-! ## Depth -/

/-- What a token adds to the number of open square brackets. -/
def bracketWeight : ExprTokenKind → Int
  | .symbol .bracketOpen => 1
  | .symbol .bracketClose => -1
  | _ => 0

/-- How many square brackets are open after some tokens. -/
def bracketDepth : List ExprToken → Int
  | [] => 0
  | t :: ts => bracketWeight t.kind + bracketDepth ts

@[simp] theorem bracketDepth_nil : bracketDepth [] = 0 := rfl

@[simp] theorem bracketDepth_cons (t : ExprToken) (ts : List ExprToken) :
    bracketDepth (t :: ts) = bracketWeight t.kind + bracketDepth ts := rfl

@[simp] theorem bracketDepth_append (ts us : List ExprToken) :
    bracketDepth (ts ++ us) = bracketDepth ts + bracketDepth us := by
  induction ts with
  | nil => exact (Int.zero_add _).symm
  | cons t ts ih => rw [List.cons_append, bracketDepth_cons, bracketDepth_cons, ih, Int.add_assoc]

/-- Nowhere in some tokens a square bracket is closed that was opened before them. -/
def StaysInside (ts : List ExprToken) : Prop :=
  ∀ us, us <+: ts → 0 ≤ bracketDepth us

/-- Some tokens close the square brackets that they open, and no others. -/
structure Balanced (ts : List ExprToken) : Prop where
  inside : StaysInside ts
  settled : bracketDepth ts = 0

/-! ## Balanced tokens -/

theorem Balanced.nil : Balanced [] where
  inside := by
    intro us hus
    rw [List.prefix_nil.1 hus]
    exact Int.le_refl 0
  settled := rfl

/-- A token that is no square bracket changes nothing. -/
theorem Balanced.cons (ht : bracketWeight t.kind = 0) (h : Balanced ts) : Balanced (t :: ts) where
  inside := by
    intro us hus
    rcases List.prefix_cons_iff.1 hus with rfl | ⟨vs, rfl, hvs⟩
    · exact Int.le_refl 0
    · rw [bracketDepth_cons, ht, Int.zero_add]
      exact h.inside vs hvs
  settled := by rw [bracketDepth_cons, ht, h.settled, Int.zero_add]

theorem Balanced.singleton (ht : bracketWeight t.kind = 0) : Balanced [t] :=
  .cons ht .nil

theorem Balanced.append (h : Balanced ts) (h' : Balanced us) : Balanced (ts ++ us) where
  inside := by
    intro vs hvs
    rcases List.prefix_or_prefix_of_prefix hvs (List.prefix_append ts us) with hts | ⟨ws, rfl⟩
    · exact h.inside vs hts
    · rw [bracketDepth_append, h.settled, Int.zero_add]
      exact h'.inside ws ((List.prefix_append_right_inj ts).1 hvs)
  settled := by rw [bracketDepth_append, h.settled, h'.settled, Int.zero_add]

/-- Balanced tokens between square brackets, and further ones behind. -/
theorem Balanced.bracketed (ho : o.kind = .symbol .bracketOpen) (h : Balanced ts) (hc : c.kind = .symbol .bracketClose)
    (h' : Balanced us) : Balanced (o :: (ts ++ c :: us)) where
  inside := by
    intro ws hws
    have hopen : bracketWeight o.kind = 1 := by rw [ho]; rfl
    have hclose : bracketWeight c.kind = -1 := by rw [hc]; rfl
    rcases List.prefix_cons_iff.1 hws with rfl | ⟨vs, rfl, hvs⟩
    · exact Int.le_refl 0
    · rw [bracketDepth_cons, hopen]
      rcases List.prefix_or_prefix_of_prefix hvs (List.prefix_append ts _) with hts | ⟨ws, rfl⟩
      · have hle := h.inside vs hts
        omega
      · rw [bracketDepth_append, h.settled]
        rcases List.prefix_cons_iff.1 ((List.prefix_append_right_inj ts).1 hvs) with rfl | ⟨xs, rfl, hxs⟩
        · rw [bracketDepth_nil]
          omega
        · have hle := h'.inside xs hxs
          rw [bracketDepth_cons, hclose]
          omega
  settled := by
    have hopen : bracketWeight o.kind = 1 := by rw [ho]; rfl
    have hclose : bracketWeight c.kind = -1 := by rw [hc]; rfl
    rw [bracketDepth_cons, bracketDepth_append, bracketDepth_cons, hopen, hclose, h.settled, h'.settled]
    rfl

/-- Balanced tokens with one that is no square bracket on either side, and further ones behind. -/
theorem Balanced.between (ho : bracketWeight o.kind = 0) (h : Balanced ts) (hc : bracketWeight c.kind = 0)
    (h' : Balanced us) : Balanced (o :: (ts ++ c :: us)) :=
  .cons ho (h.append (.cons hc h'))

/-- Tokens with one that is no square bracket between them. -/
theorem Balanced.join (h : Balanced ts) (ht : bracketWeight t.kind = 0) (h' : Balanced us) :
    Balanced (ts ++ t :: us) :=
  h.append (.cons ht h')

theorem Balanced.not_close (h : Balanced ts) (hc : c.kind = .symbol .bracketClose) (us : List ExprToken) :
    ¬ StaysInside (ts ++ c :: us) := by
  intro hinside
  have hle := hinside (ts ++ [c]) ((List.prefix_append_right_inj ts).2 (List.prefix_append [c] us))
  have hclose : bracketWeight c.kind = -1 := by rw [hc]; rfl
  rw [bracketDepth_append, h.settled, bracketDepth_cons, hclose] at hle
  exact absurd hle (by decide)

/-! ## Phrases -/

theorem Operator.balanced {ops : List ExprToken} {join : Expr → Expr → Expr}
    (h : Operator l (ops.map (·.kind)) join) : Balanced ops := by
  obtain ⟨⟨k, p⟩, rfl⟩ | ⟨⟨k, p⟩, ⟨k', p'⟩, rfl⟩ := h.tokens
  · exact .singleton (by cases h <;> rfl)
  · cases h
    exact .cons rfl (.singleton rfl)

theorem Front.weight {k : ExprTokenKind} {e' : Expr} (h : Front l k e e') : bracketWeight k = 0 := by
  cases h <;> rfl

mutual

theorem Derives.balanced {l : Level} {ts : List ExprToken} {e : Expr} : Derives d l ts e → Balanced ts
  | .disjunction h => h.balanced
  | .conditional hb ht hc hu ho =>
    hb.balanced.join (by rw [ht]; rfl) (hc.balanced.join (by rw [hu]; rfl) ho.balanced)
  | .chain _ h hr => h.balanced.append hr.balanced
  | .comparison h => h.balanced
  | .postfixed h => h.balanced
  | .front ht h => .cons ht.weight h.balanced
  | .suffixes h hs => h.balanced.append hs.balanced
  | .number ht _ => .singleton (by rw [ht]; rfl)
  | .str ht => .singleton (by rw [ht]; rfl)
  | .constant ht _ => .singleton (by rw [ht]; rfl)
  | .name ht => .singleton (by rw [ht]; rfl)
  | .group ho h hc => .between (by rw [ho]; rfl) h.balanced (by rw [hc]; rfl) .nil
  | .list ho h hc => .bracketed ho h.balanced hc .nil
  | .dict ho h hc => .between (by rw [ho]; rfl) h.balanced (by rw [hc]; rfl) .nil

theorem Chain.balanced {l : Level} {left : Expr} {ts : List ExprToken} {e : Expr} : Chain d l left ts e → Balanced ts
  | .nil => .nil
  | .cons _ ho h hr => ho.balanced.append (h.balanced.append hr.balanced)

theorem Suffixes.balanced {target : Expr} {ts : List ExprToken} {e : Expr} : Suffixes d target ts e → Balanced ts
  | .nil => .nil
  | .member ht hu hs => .cons (by rw [ht]; rfl) (.cons (by rw [hu]; rfl) hs.balanced)
  | .item ho h hc hs => .bracketed ho h.balanced hc hs.balanced
  | .call ho h hc hs => .between (by rw [ho]; rfl) h.balanced (by rw [hc]; rfl) hs.balanced

theorem Pipeline.balanced {withArgs : Bool} {ts : List ExprToken} {e : Expr} : Pipeline d withArgs ts e → Balanced ts
  | .mk h hs => h.balanced.append hs.balanced

theorem Stages.balanced {before after : Bool} {value : Expr} {ts : List ExprToken} {e : Expr} :
    Stages d before value ts after e → Balanced ts
  | .nil => .nil
  | .plain ht hu hs => .cons (by rw [ht]; rfl) (.cons (by rw [hu]; rfl) hs.balanced)
  | .withArgs ht hu hc h hs =>
    .cons (by rw [ht]; rfl) (.cons (by rw [hu]; rfl) (.cons (by rw [hc]; rfl) (h.balanced.append hs.balanced)))

theorem Arguments.balanced {ts : List ExprToken} {es : List Expr} : Arguments d ts es → Balanced ts
  | .one h => h.balanced
  | .cons h ht hr => h.balanced.join (by rw [ht]; rfl) hr.balanced

theorem Items.balanced {last : Bool} {ts : List ExprToken} {es : List Expr} : Items d last ts es → Balanced ts
  | .one h => h.balanced
  | .cons h _ ht hr => h.balanced.join (by rw [ht]; rfl) hr.balanced

theorem Elements.balanced {ts : List ExprToken} {es : List Expr} : Elements d ts es → Balanced ts
  | .nil => .nil
  | .items h => h.balanced
  | .trailing h _ ht => h.balanced.append (.singleton (by rw [ht]; rfl))

theorem Entries.balanced {last : Bool} {ts : List ExprToken} {es : List (Expr × Expr)} :
    Entries d last ts es → Balanced ts
  | .one hk ht hv => hk.balanced.join (by rw [ht]; rfl) hv.balanced
  | .cons hk ht hv _ hu hr =>
    hk.balanced.join (by rw [ht]; rfl) (hv.balanced.join (by rw [hu]; rfl) hr.balanced)

theorem Pairs.balanced {ts : List ExprToken} {es : List (Expr × Expr)} : Pairs d ts es → Balanced ts
  | .nil => .nil
  | .entries h => h.balanced
  | .trailing h _ ht => h.balanced.append (.singleton (by rw [ht]; rfl))

end

/-! ## Expressions that start with a list -/

/-- Tokens go on with an expression: they are none and leave it as it is, or they make one of it that is no list. -/
def GoesOn (e : Expr) (ts : List ExprToken) (e' : Expr) : Prop :=
  ts = [] ∧ e' = e ∨ ts ≠ [] ∧ ∀ es, e' ≠ .list es

theorem GoesOn.trans {e' e'' : Expr} (h : GoesOn e ts e') (h' : GoesOn e' us e'') : GoesOn e (ts ++ us) e'' := by
  rcases h' with ⟨rfl, rfl⟩ | ⟨hus, he⟩
  · rwa [List.append_nil]
  · exact .inr ⟨List.append_ne_nil_of_right_ne_nil ts hus, he⟩

/-- Further tokens behind some that make another expression. -/
theorem GoesOn.after {e' e'' : Expr} (h : GoesOn e' us e'') (hts : ts ≠ []) (he : ∀ es, e' ≠ .list es) :
    GoesOn e (ts ++ us) e'' :=
  .trans (.inr ⟨hts, he⟩) h

theorem GoesOn.afterTwo {e' e'' : Expr} {t u : ExprToken} (h : GoesOn e' us e'') (he : ∀ es, e' ≠ .list es) :
    GoesOn e (t :: u :: us) e'' := by
  rw [show t :: u :: us = [t, u] ++ us from rfl]
  exact h.after nofun he

theorem GoesOn.afterBracketed {e' e'' : Expr} {o c : ExprToken} (h : GoesOn e' us e'') (he : ∀ es, e' ≠ .list es) :
    GoesOn e (o :: (ts ++ c :: us)) e'' := by
  rw [show o :: (ts ++ c :: us) = (o :: (ts ++ [c])) ++ us by simp]
  exact h.after nofun he

theorem Operator.ne_list {kinds : List ExprTokenKind} {join : Expr → Expr → Expr} (h : Operator l kinds join)
    (left right : Expr) (es : List Expr) : join left right ≠ .list es := by
  cases h <;> nofun

theorem Chain.goesOn {l : Level} {left : Expr} {ts : List ExprToken} {e : Expr} :
    Chain d l left ts e → GoesOn left ts e
  | .nil => .inl ⟨rfl, rfl⟩
  | @Chain.cons _ _ _ ops ts us _ _ _ _ _ ho h hr => by
    rw [← List.append_assoc]
    exact hr.goesOn.after (List.append_ne_nil_of_right_ne_nil ops h.ne_nil) (ho.ne_list _ _)

theorem Suffixes.goesOn {target : Expr} {ts : List ExprToken} {e : Expr} :
    Suffixes d target ts e → GoesOn target ts e
  | .nil => .inl ⟨rfl, rfl⟩
  | .member _ _ hs => hs.goesOn.afterTwo nofun
  | .item _ _ _ hs => hs.goesOn.afterBracketed nofun
  | .call _ _ _ hs => hs.goesOn.afterBracketed nofun

theorem Stages.goesOn {before after : Bool} {value : Expr} {ts : List ExprToken} {e : Expr} :
    Stages d before value ts after e → GoesOn value ts e
  | .nil => .inl ⟨rfl, rfl⟩
  | .plain _ _ hs => hs.goesOn.afterTwo nofun
  | .withArgs _ _ _ _ hs => by
    rw [← List.cons_append, ← List.cons_append, ← List.cons_append]
    exact hs.goesOn.after nofun nofun

/-- A list between square brackets, and what goes on with it. -/
inductive ListFirst (d : Dialect) : List ExprToken → Expr → Prop
  | mk {o c : ExprToken} {us vs : List ExprToken} {es : List Expr} {e : Expr} (h : Elements d us es)
      (hc : c.kind = .symbol .bracketClose) (hg : GoesOn (.list es) vs e) : ListFirst d (o :: (us ++ c :: vs)) e

theorem ListFirst.follow {e' : Expr} (h : ListFirst d ts e) (hg : GoesOn e us e') : ListFirst d (ts ++ us) e' := by
  obtain ⟨h, hc, hlist⟩ := h
  rw [List.cons_append, List.append_assoc]
  exact .mk h hc (hlist.trans hg)

/-- Some tokens start with an opening square bracket, if there are any. -/
def OpensBracket (ts : List ExprToken) : Prop :=
  ∀ t ∈ ts.head?, t.kind = .symbol .bracketOpen

theorem OpensBracket.left (h : OpensBracket (ts ++ us)) : OpensBracket ts :=
  fun t ht => h t (List.mem_head?_append_of_mem_head? ht)

/-- An expression whose first token opens a square bracket starts with a list. -/
theorem Derives.listFirst {l : Level} {ts : List ExprToken} {e : Expr} :
    Derives d l ts e → OpensBracket ts → ListFirst d ts e
  | .disjunction h, ht => h.listFirst ht
  | .conditional hb _ _ _ _, ht => (hb.listFirst ht.left).follow (.inr ⟨nofun, nofun⟩)
  | .chain _ h hr, ht => (h.listFirst ht.left).follow hr.goesOn
  | .comparison h, ht => h.listFirst ht
  | .postfixed h, ht => h.listFirst ht
  | .front hf _, ht => by
    rw [ht _ rfl] at hf
    cases hf
  | .suffixes h hs, ht => (h.listFirst ht.left).follow hs.goesOn
  | .number hk _, ht => absurd (hk.symm.trans (ht _ rfl)) nofun
  | .str hk, ht => absurd (hk.symm.trans (ht _ rfl)) nofun
  | .constant hk _, ht => absurd (hk.symm.trans (ht _ rfl)) nofun
  | .name hk, ht => absurd (hk.symm.trans (ht _ rfl)) nofun
  | .group ho _ _, ht => absurd (ho.symm.trans (ht _ rfl)) nofun
  | .list _ h hc, _ => .mk h hc (.inl ⟨rfl, rfl⟩)
  | .dict ho _ _, ht => absurd (ho.symm.trans (ht _ rfl)) nofun

theorem Pipeline.listFirst {withArgs : Bool} (h : Pipeline d withArgs ts e) (ht : OpensBracket ts) :
    ListFirst d ts e := by
  obtain ⟨h, hs⟩ := h
  exact (h.listFirst ht.left).follow hs.goesOn

/-- What is read between square brackets is a list exactly if the brackets stay open: no token between them closes the
first one. The items of the list are then those that the tokens between the brackets are derived as. -/
theorem Spells.bracketed (ho : o.kind = .symbol .bracketOpen) (h : Spells d (o :: (ts ++ [c])) e) :
    (StaysInside ts ∧ ∃ es, e = .list es ∧ Elements d ts es) ∨ (¬ StaysInside ts ∧ ∀ es, e ≠ .list es) := by
  obtain ⟨withArgs, h⟩ := h
  have hopens : OpensBracket (o :: (ts ++ [c])) := by
    rintro t ⟨⟩
    exact ho
  generalize hall : o :: (ts ++ [c]) = all at h hopens
  obtain ⟨hes, hclose, hg⟩ := h.listFirst hopens
  obtain ⟨-, hall⟩ := List.cons.inj hall
  rcases hg with ⟨rfl, rfl⟩ | ⟨hvs, hne⟩
  · obtain ⟨rfl, -⟩ := List.append_inj' hall rfl
    exact .inl ⟨hes.balanced.inside, _, rfl, hes⟩
  · -- the bracket that closes the list stands before the last one, which is the last token
    refine .inr ⟨?_, hne⟩
    obtain ⟨vs, v, rfl⟩ := (List.eq_nil_or_concat' _).resolve_left hvs
    rw [← List.cons_append, ← List.append_assoc] at hall
    obtain ⟨rfl, -⟩ := List.append_inj' hall rfl
    exact hes.balanced.not_close hclose vs

theorem Items.list_ne_nil {last : Bool} {es : List Expr} (h : Items d last ts es) : es ≠ [] := by
  cases h <;> nofun

/-- There are elements exactly if there are tokens of them. -/
theorem Elements.eq_nil_iff {es : List Expr} (h : Elements d ts es) : es = [] ↔ ts = [] := by
  cases h with
  | nil => exact iff_of_true rfl rfl
  | items h => exact iff_of_false h.list_ne_nil h.ne_nil
  | trailing h _ _ => exact iff_of_false h.list_ne_nil (List.concat_ne_nil _ _)

/-- A list of derived items between square brackets. -/
theorem Elements.spells {es : List Expr} (h : Elements d ts es) (ho : o.kind = .symbol .bracketOpen)
    (hc : c.kind = .symbol .bracketClose) : Spells d (o :: (ts ++ [c])) (.list es) := by
  have hp := Pipeline.mk (Derives.list ho h hc).of_primary (@Stages.nil d false _)
  rw [List.append_nil] at hp
  exact ⟨false, hp⟩

end TemplateEngine.ExprGrammar

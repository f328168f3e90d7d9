/-
Synonyms in expressions. Some symbols and one keyword have a keyword that says the same, and neither the places of tokens
nor these spellings matter to a derivation: with other places, and keywords for any of the symbols, tokens are derived as
the same expression.
-/
import Mathlib.Data.List.Forall2
import TemplateEngine.Proofs.Expr.Parts

namespace TemplateEngine.ExprGrammar

/-- A kind of token, or the keyword that says the same. -/
inductive Synonym : ExprTokenKind → ExprTokenKind → Prop
  | same {k : ExprTokenKind} : Synonym k k
  | and : Synonym (.symbol .ampersands) (.keyword .and)
  | or : Synonym (.symbol .bars) (.keyword .or)
  | not : Synonym (.symbol .bang) (.keyword .not)
  | none : Synonym (.keyword .null) (.keyword .none)

/-- Tokens of which some may have been replaced by synonyms, wherever they stand. -/
abbrev Reworded (ts ts' : List ExprToken) : Prop :=
  ts.Forall₂ (fun t t' => Synonym t.kind t'.kind) ts'

/-- The kinds of tokens that have a synonym. -/
def hasSynonym : ExprTokenKind → Bool
  | .symbol .ampersands | .symbol .bars | .symbol .bang | .keyword .null => true
  | _ => false

variable {d : Dialect} {f : ExprToken → ExprToken} {ts us vs : List ExprToken}

/-! ## Reworded tokens -/

/-- A token without a synonym is replaced by one of its kind. -/
theorem Synonym.kind_eq {k k' k₀ : ExprTokenKind} (h : Synonym k k') (hk : k = k₀) (hs : hasSynonym k₀ = false) :
    k' = k₀ := by
  cases h with
  | same => exact hk
  | _ =>
    rw [← hk] at hs
    cases hs

theorem Reworded.split (h : Reworded (ts ++ us) vs) :
    ∃ ts' us', vs = ts' ++ us' ∧ Reworded ts ts' ∧ Reworded us us' := by
  induction ts generalizing vs with
  | nil => exact ⟨[], vs, rfl, .nil, h⟩
  | cons t ts ih =>
    obtain ⟨t', vs', ht, hrest, rfl⟩ := List.forall₂_cons_left_iff.1 h
    obtain ⟨ts', us', rfl, hts, hus⟩ := ih hrest
    exact ⟨t' :: ts', us', rfl, .cons ht hts, hus⟩

/-- A token between two rows of tokens. -/
theorem Reworded.split_cons {t : ExprToken} (h : Reworded (ts ++ t :: us) vs) :
    ∃ ts' t' us', vs = ts' ++ t' :: us' ∧ Reworded ts ts' ∧ Synonym t.kind t'.kind ∧ Reworded us us' := by
  obtain ⟨ts', _, rfl, hts, hrest⟩ := h.split
  obtain ⟨t', us', ht, hus, rfl⟩ := List.forall₂_cons_left_iff.1 hrest
  exact ⟨ts', t', us', rfl, hts, ht, hus⟩

theorem Reworded.of_kinds (h : ts.map (·.kind) = us.map (·.kind)) : Reworded ts us := by
  rw [← List.forall₂_eq_eq_eq, List.forall₂_map_left_iff, List.forall₂_map_right_iff] at h
  exact h.imp fun _ _ heq => heq ▸ .same

theorem Reworded.map (hf : ∀ t, (f t).kind = t.kind) (ts : List ExprToken) : Reworded ts (ts.map f) := by
  refine .of_kinds ?_
  rw [List.map_map]
  exact List.map_congr_left fun t _ => (hf t).symm

/-! ## Operators and constants -/

theorem Operator.reword {l : Level} {kinds kinds' : List ExprTokenKind} {join : Expr → Expr → Expr}
    (h : Operator l kinds join) (hr : kinds.Forall₂ Synonym kinds') : Operator l kinds' join := by
  obtain _ | ⟨hk, hr⟩ := hr
  · cases h
  · obtain _ | ⟨hk', hr⟩ := hr
    · cases h <;> cases hk <;> constructor
    · cases h
      cases hk
      cases hk'
      cases hr
      exact .notMem

theorem Front.reword {l : Level} {k k' : ExprTokenKind} {operand e : Expr} (h : Front l k operand e)
    (hk : Synonym k k') : Front l k' operand e := by
  cases h <;> cases hk <;> constructor

theorem Constant.reword {k : Keyword} {v : Literal} (h : Constant k v) {kind : ExprTokenKind}
    (hk : Synonym (.keyword k) kind) : ∃ k', kind = .keyword k' ∧ Constant k' v := by
  cases hk with
  | same => exact ⟨k, rfl, h⟩
  | none =>
    cases h
    exact ⟨_, rfl, .none⟩

/-! ## Phrases

By induction on derivations, all kinds of phrases at once. All tokens of a rule but operators and constants have no
synonyms, so that they are of the same kind.
-/

mutual

theorem Derives.reword {l : Level} {ts ts' : List ExprToken} {e : Expr} :
    Derives d l ts e → Reworded ts ts' → Derives d l ts' e
  | .disjunction h, hr => .disjunction (h.reword hr)
  | .conditional hb ht hc hu ho, hr => by
    obtain ⟨ts', t', _, rfl, hts, htt, hr⟩ := hr.split_cons
    obtain ⟨us', u', vs', rfl, hus, huu, hvs⟩ := Reworded.split_cons hr
    exact .conditional (hb.reword hts) (htt.kind_eq ht rfl) (hc.reword hus) (huu.kind_eq hu rfl) (ho.reword hvs)
  | .chain hl h hc, hr => by
    obtain ⟨ts', us', rfl, hts, hus⟩ := hr.split
    exact .chain hl (h.reword hts) (hc.reword hus)
  | .comparison h, hr => .comparison (h.reword hr)
  | .postfixed h, hr => .postfixed (h.reword hr)
  | .front ht h, .cons htt hts => .front (ht.reword htt) (h.reword hts)
  | .suffixes h hs, hr => by
    obtain ⟨ts', us', rfl, hts, hus⟩ := hr.split
    exact .suffixes (h.reword hts) (hs.reword hus)
  | .number ht hn, .cons htt .nil => .number (htt.kind_eq ht rfl) hn
  | .str ht, .cons htt .nil => .str (htt.kind_eq ht rfl)
  | .constant ht hk, .cons htt .nil => by
    rw [ht] at htt
    obtain ⟨k', hk', hv⟩ := hk.reword htt
    exact .constant hk' hv
  | .name ht, .cons htt .nil => .name (htt.kind_eq ht rfl)
  | .group ho h hc, .cons hoo hr => by
    obtain ⟨ts', c', _, rfl, hts, hcc, hnil⟩ := Reworded.split_cons hr
    obtain rfl := List.forall₂_nil_left_iff.1 hnil
    exact .group (hoo.kind_eq ho rfl) (h.reword hts) (hcc.kind_eq hc rfl)
  | .list ho h hc, .cons hoo hr => by
    obtain ⟨ts', c', _, rfl, hts, hcc, hnil⟩ := Reworded.split_cons hr
    obtain rfl := List.forall₂_nil_left_iff.1 hnil
    exact .list (hoo.kind_eq ho rfl) (h.reword hts) (hcc.kind_eq hc rfl)
  | .dict ho h hc, .cons hoo hr => by
    obtain ⟨ts', c', _, rfl, hts, hcc, hnil⟩ := Reworded.split_cons hr
    obtain rfl := List.forall₂_nil_left_iff.1 hnil
    exact .dict (hoo.kind_eq ho rfl) (h.reword hts) (hcc.kind_eq hc rfl)

theorem Chain.reword {l : Level} {left : Expr} {ts ts' : List ExprToken} {e : Expr} :
    Chain d l left ts e → Reworded ts ts' → Chain d l left ts' e
  | .nil, .nil => .nil
  | .cons hl ho h hc, hr => by
    obtain ⟨ops', _, rfl, hops, hr⟩ := hr.split
    obtain ⟨ts', us', rfl, hts, hus⟩ := Reworded.split hr
    have hkinds := List.forall₂_map_left_iff.2 (List.forall₂_map_right_iff.2 hops)
    exact .cons hl (ho.reword hkinds) (h.reword hts) (hc.reword hus)

theorem Suffixes.reword {target : Expr} {ts ts' : List ExprToken} {e : Expr} :
    Suffixes d target ts e → Reworded ts ts' → Suffixes d target ts' e
  | .nil, .nil => .nil
  | .member ht hu hs, .cons htt (.cons huu hr) => .member (htt.kind_eq ht rfl) (huu.kind_eq hu rfl) (hs.reword hr)
  | .item ho h hc hs, .cons hoo hr => by
    obtain ⟨ts', c', us', rfl, hts, hcc, hus⟩ := Reworded.split_cons hr
    exact .item (hoo.kind_eq ho rfl) (h.reword hts) (hcc.kind_eq hc rfl) (hs.reword hus)
  | .call ho h hc hs, .cons hoo hr => by
    obtain ⟨ts', c', us', rfl, hts, hcc, hus⟩ := Reworded.split_cons hr
    exact .call (hoo.kind_eq ho rfl) (h.reword hts) (hcc.kind_eq hc rfl) (hs.reword hus)

theorem Pipeline.reword {withArgs : Bool} {ts ts' : List ExprToken} {e : Expr} :
    Pipeline d withArgs ts e → Reworded ts ts' → Pipeline d withArgs ts' e
  | .mk h hs, hr => by
    obtain ⟨ts', us', rfl, hts, hus⟩ := hr.split
    exact .mk (h.reword hts) (hs.reword hus)

theorem Stages.reword {before after : Bool} {value : Expr} {ts ts' : List ExprToken} {e : Expr} :
    Stages d before value ts after e → Reworded ts ts' → Stages d before value ts' after e
  | .nil, .nil => .nil
  | .plain ht hu hs, .cons htt (.cons huu hr) => .plain (htt.kind_eq ht rfl) (huu.kind_eq hu rfl) (hs.reword hr)
  | .withArgs ht hu hc h hs, .cons htt (.cons huu (.cons hcc hr)) => by
    obtain ⟨ts', us', rfl, hts, hus⟩ := Reworded.split hr
    exact .withArgs (htt.kind_eq ht rfl) (huu.kind_eq hu rfl) (hcc.kind_eq hc rfl) (h.reword hts) (hs.reword hus)

theorem Arguments.reword {ts ts' : List ExprToken} {es : List Expr} :
    Arguments d ts es → Reworded ts ts' → Arguments d ts' es
  | .one h, hr => .one (h.reword hr)
  | .cons h ht hs, hr => by
    obtain ⟨ts', t', us', rfl, hts, htt, hus⟩ := hr.split_cons
    exact .cons (h.reword hts) (htt.kind_eq ht rfl) (hs.reword hus)

theorem Items.reword {last : Bool} {ts ts' : List ExprToken} {es : List Expr} :
    Items d last ts es → Reworded ts ts' → Items d last ts' es
  | .one h, hr => .one (h.reword hr)
  | .cons h hd ht hs, hr => by
    obtain ⟨ts', t', us', rfl, hts, htt, hus⟩ := hr.split_cons
    exact .cons (h.reword hts) hd (htt.kind_eq ht rfl) (hs.reword hus)

theorem Elements.reword {ts ts' : List ExprToken} {es : List Expr} :
    Elements d ts es → Reworded ts ts' → Elements d ts' es
  | .nil, .nil => .nil
  | .items h, hr => .items (h.reword hr)
  | .trailing h hd ht, hr => by
    obtain ⟨ts', t', _, rfl, hts, htt, hnil⟩ := hr.split_cons
    obtain rfl := List.forall₂_nil_left_iff.1 hnil
    exact .trailing (h.reword hts) hd (htt.kind_eq ht rfl)

theorem Entries.reword {last : Bool} {ts ts' : List ExprToken} {es : List (Expr × Expr)} :
    Entries d last ts es → Reworded ts ts' → Entries d last ts' es
  | .one hk ht hv, hr => by
    obtain ⟨ts', t', us', rfl, hts, htt, hus⟩ := hr.split_cons
    exact .one (hk.reword hts) (htt.kind_eq ht rfl) (hv.reword hus)
  | .cons hk ht hv hd hu hs, hr => by
    obtain ⟨ts', t', _, rfl, hts, htt, hr⟩ := hr.split_cons
    obtain ⟨us', u', vs', rfl, hus, huu, hvs⟩ := Reworded.split_cons hr
    exact .cons (hk.reword hts) (htt.kind_eq ht rfl) (hv.reword hus) hd (huu.kind_eq hu rfl) (hs.reword hvs)

theorem Pairs.reword {ts ts' : List ExprToken} {es : List (Expr × Expr)} :
    Pairs d ts es → Reworded ts ts' → Pairs d ts' es
  | .nil, .nil => .nil
  | .entries h, hr => .entries (h.reword hr)
  | .trailing h hd ht, hr => by
    obtain ⟨ts', t', _, rfl, hts, htt, hnil⟩ := hr.split_cons
    obtain rfl := List.forall₂_nil_left_iff.1 hnil
    exact .trailing (h.reword hts) hd (htt.kind_eq ht rfl)

end

/-! ## Tokens elsewhere

An expression does not depend on where its tokens stand.
-/

theorem Pipeline.map {withArgs : Bool} {e : Expr} (h : Pipeline d withArgs ts e) (hf : ∀ t, (f t).kind = t.kind) :
    Pipeline d withArgs (ts.map f) e :=
  h.reword (.map hf ts)

theorem Stages.map {before after : Bool} {value e : Expr} (h : Stages d before value ts after e)
    (hf : ∀ t, (f t).kind = t.kind) : Stages d before value (ts.map f) after e :=
  h.reword (.map hf ts)

theorem Elements.map {es : List Expr} (h : Elements d ts es) (hf : ∀ t, (f t).kind = t.kind) :
    Elements d (ts.map f) es :=
  h.reword (.map hf ts)

end TemplateEngine.ExprGrammar

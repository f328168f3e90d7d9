/-
The names that an expression mentions stand in its source: each of them is a token, and the token is a part of the text.
-/
import TemplateEngine.Proofs.Expr.Layout
import TemplateEngine.Proofs.Expr.Names

namespace TemplateEngine

open ExprGrammar

/-- A name is one of some tokens. -/
def Named (n : String) (ts : List ExprToken) : Prop :=
  ∃ t ∈ ts, t.kind = .name n

namespace Named

variable {n : String} {ts us : List ExprToken} {t : ExprToken}

theorem here (h : t.kind = .name n) : Named n (t :: ts) :=
  ⟨t, List.mem_cons_self .., h⟩

theorem mono (h : Named n ts) (hts : ∀ t ∈ ts, t ∈ us) : Named n us := by
  obtain ⟨t, ht, hn⟩ := h
  exact ⟨t, hts t ht, hn⟩

theorem left (h : Named n ts) : Named n (ts ++ us) :=
  h.mono fun _ => List.mem_append_left us

theorem right (h : Named n us) : Named n (ts ++ us) :=
  h.mono fun _ => List.mem_append_right ts

theorem cons (h : Named n ts) : Named n (t :: ts) :=
  h.mono fun _ => List.mem_cons_of_mem t

end Named

/-! ## Phrases -/

namespace ExprGrammar

variable {d : Dialect} {n : String}

theorem Operator.mem_names {l : Level} {kinds : List ExprTokenKind} {join : Expr → Expr → Expr}
    (h : Operator l kinds join) {left right : Expr} (hn : n ∈ (join left right).names) :
    n ∈ left.names ∨ n ∈ right.names := by
  cases h <;> exact List.mem_append.1 hn

theorem Front.mem_names {l : Level} {k : ExprTokenKind} {operand e : Expr} (h : Front l k operand e)
    (hn : n ∈ e.names) : n ∈ operand.names := by
  cases h <;> exact hn

mutual

theorem Derives.named {l : Level} {ts : List ExprToken} {e : Expr} : Derives d l ts e → n ∈ e.names → Named n ts
  | .disjunction h, hn => h.named hn
  | .conditional hb _ hc _ ho, hn => by
    rcases List.mem_append.1 hn with hn | hn
    · exact .right (.cons (.left (hc.named hn)))
    · rcases List.mem_append.1 hn with hn | hn
      · exact .left (hb.named hn)
      · exact .right (.cons (.right (.cons (ho.named hn))))
  | .chain _ h hr, hn => (hr.named hn).elim (fun hn => .left (h.named hn)) .right
  | .comparison h, hn => h.named hn
  | .postfixed h, hn => h.named hn
  | .front ht h, hn => .cons (h.named (ht.mem_names hn))
  | .suffixes h hs, hn => (hs.named hn).elim (fun hn => .left (h.named hn)) .right
  | .number _ _, hn => nomatch hn
  | .str _, hn => nomatch hn
  | .constant _ _, hn => nomatch hn
  | .name ht, hn => .here (by rw [ht, List.mem_singleton.1 hn])
  | .group _ h _, hn => .cons (.left (h.named hn))
  | .list _ h _, hn => .cons (.left (h.named hn))
  | .dict _ h _, hn => .cons (.left (h.named hn))

theorem Chain.named {l : Level} {left : Expr} {ts : List ExprToken} {e : Expr} :
    Chain d l left ts e → n ∈ e.names → n ∈ left.names ∨ Named n ts
  | .nil, hn => .inl hn
  | .cons _ ho h hr, hn => by
    rcases hr.named hn with hn | hn
    · exact (ho.mem_names hn).imp_right fun hn => .right (.left (h.named hn))
    · exact .inr (.right (.right hn))

theorem Suffixes.named {target : Expr} {ts : List ExprToken} {e : Expr} :
    Suffixes d target ts e → n ∈ e.names → n ∈ target.names ∨ Named n ts
  | .nil, hn => .inl hn
  | .member _ _ hs, hn => (hs.named hn).imp_right fun hn => .cons (.cons hn)
  | .item _ h _ hs, hn => by
    rcases hs.named hn with hn | hn
    · exact (List.mem_append.1 hn).imp_right fun hn => .cons (.left (h.named hn))
    · exact .inr (.cons (.right (.cons hn)))
  | .call _ h _ hs, hn => by
    rcases hs.named hn with hn | hn
    · exact (List.mem_append.1 hn).imp_right fun hn => .cons (.left (h.named hn))
    · exact .inr (.cons (.right (.cons hn)))

theorem Pipeline.named {withArgs : Bool} {ts : List ExprToken} {e : Expr} :
    Pipeline d withArgs ts e → n ∈ e.names → Named n ts
  | .mk h hs, hn => (hs.named hn).elim (fun hn => .left (h.named hn)) .right

theorem Stages.named {before after : Bool} {value : Expr} {ts : List ExprToken} {e : Expr} :
    Stages d before value ts after e → n ∈ e.names → n ∈ value.names ∨ Named n ts
  | .nil, hn => .inl hn
  | .plain _ _ hs, hn => by
    rcases hs.named hn with hn | hn
    · exact .inl ((List.mem_append.1 hn).resolve_right List.not_mem_nil)
    · exact .inr (.cons (.cons hn))
  | .withArgs _ _ _ h hs, hn => by
    rcases hs.named hn with hn | hn
    · exact (List.mem_append.1 hn).imp_right fun hn => .cons (.cons (.cons (.left (h.named hn))))
    · exact .inr (.cons (.cons (.cons (.right hn))))

theorem Arguments.named {ts : List ExprToken} {es : List Expr} :
    Arguments d ts es → n ∈ Expr.namesAll es → Named n ts
  | .one h, hn => h.named ((List.mem_append.1 hn).resolve_right List.not_mem_nil)
  | .cons h _ hr, hn =>
    (List.mem_append.1 hn).elim (fun hn => .left (h.named hn)) fun hn => .right (.cons (hr.named hn))

theorem Items.named {last : Bool} {ts : List ExprToken} {es : List Expr} :
    Items d last ts es → n ∈ Expr.namesAll es → Named n ts
  | .one h, hn => h.named ((List.mem_append.1 hn).resolve_right List.not_mem_nil)
  | .cons h _ _ hr, hn =>
    (List.mem_append.1 hn).elim (fun hn => .left (h.named hn)) fun hn => .right (.cons (hr.named hn))

theorem Elements.named {ts : List ExprToken} {es : List Expr} :
    Elements d ts es → n ∈ Expr.namesAll es → Named n ts
  | .nil, hn => nomatch hn
  | .items h, hn => h.named hn
  | .trailing h _ _, hn => .left (h.named hn)

theorem Entries.named {last : Bool} {ts : List ExprToken} {es : List (Expr × Expr)} :
    Entries d last ts es → n ∈ Expr.namesEntries es → Named n ts
  | .one hk _ hv, hn => by
    rcases List.mem_append.1 hn with hn | hn
    · exact .left (hk.named hn)
    · exact .right (.cons (hv.named ((List.mem_append.1 hn).resolve_right List.not_mem_nil)))
  | .cons hk _ hv _ _ hr, hn => by
    rcases List.mem_append.1 hn with hn | hn
    · exact .left (hk.named hn)
    · rcases List.mem_append.1 hn with hn | hn
      · exact .right (.cons (.left (hv.named hn)))
      · exact .right (.cons (.right (.cons (hr.named hn))))

theorem Pairs.named {ts : List ExprToken} {es : List (Expr × Expr)} :
    Pairs d ts es → n ∈ Expr.namesEntries es → Named n ts
  | .nil, hn => nomatch hn
  | .entries h, hn => h.named hn
  | .trailing h _ _, hn => .left (h.named hn)

end

end ExprGrammar

/-! ## Sources -/

variable {source n : String} {ts : List ExprToken}

/-- A name among the tokens of a source is a part of its text. -/
theorem Named.infix_source (h : tokenize source = .ok ts) (hn : Named n ts) : n.toList <:+: source.toList := by
  obtain ⟨row, hlaid, rfl⟩ := exists_laid_of_tokenize h
  obtain ⟨t, ht, hkind⟩ := hn
  rcases List.mem_append.1 ht with ht | ht
  · obtain ⟨cut, hcut, rfl⟩ := List.mem_map.1 ht
    have hwritten := writtenAs_of_describes (hlaid.describes cut hcut)
    rw [hkind] at hwritten
    have hprefix := @Laid.lexeme_at _ _ _ [] hlaid cut hcut
    rw [show cut.lexeme = n.toList from hwritten] at hprefix
    exact hprefix.isInfix.trans (List.drop_suffix _ _).isInfix
  · cases List.mem_singleton.1 ht
    cases hkind

end TemplateEngine

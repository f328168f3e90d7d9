/-
Names in sources. The name that an expression is, calls or applies as a filter is one of its tokens, and a token is a
name only if it is a word of ASCII letters, digits and underscores and no keyword. So these names, and no others, stand
for themselves: each is one token, the name of a filter behind a bar, of a call in front of brackets, and of a value.
-/
import TemplateEngine.Proofs.Expr.Layout
import TemplateEngine.Proofs.Expr.Printed

namespace TemplateEngine

open Text ExprGrammar

/-- The name that an expression is, that it calls, or of the filter that it applies. -/
def Expr.headName? : Expr → Option String
  | name n => some n
  | call function _ => function.headName?
  | filter _ n _ => some n
  | _ => none

/-! ## Names and tokens -/

namespace ExprGrammar

variable {d : Dialect} {l : Level} {ts : List ExprToken} {e : Expr} {n : String}

theorem Operator.headName? {ops : List ExprTokenKind} {join : Expr → Expr → Expr} (h : Operator l ops join)
    (left right : Expr) : (join left right).headName? = none := by
  cases h <;> rfl

theorem Front.headName? {k : ExprTokenKind} {operand : Expr} (h : Front l k operand e) : e.headName? = none := by
  cases h <;> rfl

theorem Chain.headName? {left : Expr} {ts : List ExprToken} {e : Expr} :
    Chain d l left ts e → e.headName? = some n → left.headName? = some n
  | .nil, hn => hn
  | .cons _ ho _ hr, hn => nomatch (ho.headName? _ _).symm.trans (hr.headName? hn)

theorem Suffixes.headName? {target : Expr} {ts : List ExprToken} {e : Expr} :
    Suffixes d target ts e → e.headName? = some n → target.headName? = some n
  | .nil, hn => hn
  | .member _ _ hs, hn => nomatch hs.headName? hn
  | .item _ _ _ hs, hn => nomatch hs.headName? hn
  | .call _ _ _ hs, hn => hs.headName? hn

/-- The last filter gives its name to the pipeline. -/
theorem Stages.headName? {before after : Bool} {value : Expr} {ts : List ExprToken} {e : Expr} :
    Stages d before value ts after e → e.headName? = some n → value.headName? = some n ∨ ∃ t ∈ ts, t.kind = .name n
  | .nil, hn => .inl hn
  | .plain (u := u) _ hu hs, hn => by
    rcases hs.headName? hn with h | ⟨t, ht, hkind⟩
    · cases h
      exact .inr ⟨u, by simp, hu⟩
    · exact .inr ⟨t, by simp [ht], hkind⟩
  | .withArgs (u := u) _ hu _ _ hs, hn => by
    rcases hs.headName? hn with h | ⟨t, ht, hkind⟩
    · cases h
      exact .inr ⟨u, by simp, hu⟩
    · exact .inr ⟨t, by simp [ht], hkind⟩

mutual

/-- The name of an expression is one of its tokens. -/
theorem Derives.exists_token {l : Level} {ts : List ExprToken} {e : Expr} :
    Derives d l ts e → e.headName? = some n → ∃ t ∈ ts, t.kind = .name n
  | .disjunction h, hn => h.exists_token hn
  | .conditional _ _ _ _ _, hn => nomatch hn
  | .chain _ h hr, hn => by
    obtain ⟨t, ht, hkind⟩ := h.exists_token (hr.headName? hn)
    exact ⟨t, List.mem_append_left _ ht, hkind⟩
  | .comparison h, hn => h.exists_token hn
  | .postfixed h, hn => h.exists_token hn
  | .front ht _, hn => nomatch ht.headName?.symm.trans hn
  | .suffixes h hs, hn => by
    obtain ⟨t, ht, hkind⟩ := h.exists_token (hs.headName? hn)
    exact ⟨t, List.mem_append_left _ ht, hkind⟩
  | .number _ _, hn => nomatch hn
  | .str _, hn => nomatch hn
  | .constant _ _, hn => nomatch hn
  | .name (t := t) ht, hn => ⟨t, List.mem_singleton_self t, by cases hn; exact ht⟩
  | .group _ h _, hn => by
    obtain ⟨t, ht, hkind⟩ := h.exists_token hn
    exact ⟨t, by simp [ht], hkind⟩
  | .list _ _ _, hn => nomatch hn
  | .dict _ _ _, hn => nomatch hn

theorem Pipeline.exists_token {withArgs : Bool} {ts : List ExprToken} {e : Expr} :
    Pipeline d withArgs ts e → e.headName? = some n → ∃ t ∈ ts, t.kind = .name n
  | .mk h hs, hn => by
    rcases hs.headName? hn with hn | ⟨t, ht, hkind⟩
    · obtain ⟨t, ht, hkind⟩ := h.exists_token hn
      exact ⟨t, List.mem_append_left _ ht, hkind⟩
    · exact ⟨t, List.mem_append_right _ ht, hkind⟩

end

end ExprGrammar

section

variable {source n : String} {e : Expr}

theorem isPlainName_of_describes {lexeme : List Char} (h : (Lexeme.token (.name n)).Describes lexeme) :
    isPlainName n = true := by
  generalize hk : ExprTokenKind.name n = k at h
  cases h with
  | @word c cs hc hcs =>
    unfold wordKind at hk
    dsimp only at hk
    split at hk
    · cases hk
    · rename_i hkeyword
      cases hk
      rw [isPlainName, String.toList_ofList]
      simp only [hc, List.all_eq_true.2 hcs, hkeyword]
      rfl
  | _ => cases hk

theorem isPlainName_of_token {ts : List ExprToken} (h : tokenize source = .ok ts) {t : ExprToken} (ht : t ∈ ts)
    (hn : t.kind = .name n) : isPlainName n = true := by
  obtain ⟨row, hlaid, rfl⟩ := exists_laid_of_tokenize h
  rcases List.mem_append.1 ht with ht | ht
  · obtain ⟨cut, hcut, rfl⟩ := List.mem_map.1 ht
    have hdescribes := hlaid.describes cut hcut
    rw [hn] at hdescribes
    exact isPlainName_of_describes hdescribes
  · cases List.mem_singleton.1 ht
    cases hn

/-- The name of an expression that was read is plain. -/
theorem isPlainName_of_read (h : Expr.read source = .ok e) (hn : e.headName? = some n) : isPlainName n = true := by
  obtain ⟨ts, p, hts, withArgs, hp⟩ := Expr.exists_spelled_of_read h
  obtain ⟨t, ht, hkind⟩ := hp.exists_token hn
  exact isPlainName_of_token hts (List.mem_append_left _ ht) hkind

end

/-! ## Plain names -/

/-- The ways to refer to a name in an expression: as a token, and as what a filter, a call or a value is called. -/
inductive NameUse where
  | token | filter | call | value
  deriving DecidableEq, Repr

/-- A name that is written as it is serves the use. -/
def NameUse.Serves (n : String) : NameUse → Prop
  | token => tokenize n = .ok [⟨.name n, 0⟩, ⟨.done, n.length⟩]
  | filter => Expr.read ("x | " ++ n) = .ok (.filter (.name "x") n [])
  | call => Expr.read (n ++ "(x)") = .ok (.call (.name n) [.name "x"])
  | value => Expr.read n = .ok (.name n)

section

variable {n : String}

theorem read_of_reads {s : String} {e : Expr} (h : Reads (Spells .greedy · e) s) : Expr.read s = .ok e := by
  obtain ⟨ts, p, hts, htokens⟩ := (h [] .nil).tokenize
  exact (read_eq_ok_iff htokens).2 hts

theorem reads_spelled {e : Expr} (h : e.selfDelimiting = true) : Reads (Spells .greedy · e) e.text :=
  (Expr.reads_text e h).mono fun ts hts => ⟨false, .of_derives hts (by decide)⟩

theorem tokenize_plainName (h : isPlainName n = true) : tokenize n = .ok [⟨.name n, 0⟩, ⟨.done, n.length⟩] := by
  obtain ⟨c, cs, hlist, hc, hcs, hkind⟩ := exists_chars_of_isPlainName h
  have hdescribes : (Lexeme.token (.name n)).Describes n.toList := by
    rw [hlist, ← hkind]
    exact .word hc hcs
  have hgap : ∀ c ∈ ([] : List Char), isBlank c = true := List.forall_mem_nil _
  have hlaid : Laid 0 ([] ++ (n.toList ++ [])) [⟨⟨.name n, 0⟩, n.toList⟩] [] :=
    .cons hgap (hdescribes.longest .nil) (.nil hgap)
  rw [List.nil_append, List.append_nil] at hlaid
  exact hlaid.tokenize_eq_ok

/-- A plain name behind a bar is the name of a filter. -/
theorem read_plainName_filter (h : isPlainName n = true) :
    Expr.read ("x | " ++ n) = .ok (.filter (.name "x") n []) := by
  have hbar : ∀ rest, Scans "|".toList (' ' :: rest) (Single (.symbol .bar)) := Scans.symbol_spaced .bar
  have hx : Reads (Single (.name "x")) "x" := .name (by decide)
  refine read_of_reads ((hx.spaced hbar (.name h)).mono ?_)
  rintro _ ⟨_, _, ⟨t, ht, rfl⟩, ⟨_, _, ⟨u, hu, rfl⟩, ⟨w, hw, rfl⟩, rfl⟩, rfl⟩
  exact ⟨false, .mk (.of_primary (.name ht)) (.plain hu hw .nil)⟩

/-- A name serves a use exactly if it is plain. -/
theorem NameUse.serves_iff (use : NameUse) (n : String) : use.Serves n ↔ isPlainName n = true := by
  cases use with
  | token =>
    exact ⟨fun h => isPlainName_of_token h (List.mem_cons_self ..) rfl, tokenize_plainName⟩
  | filter => exact ⟨fun h => isPlainName_of_read h rfl, read_plainName_filter⟩
  | call =>
    refine ⟨fun h => isPlainName_of_read h rfl, fun h => ?_⟩
    have htext : (Expr.call (.name n) [.name "x"]).text = n ++ "(x)" := by
      rw [Expr.text, Expr.text, Expr.texts, Expr.text, Expr.texts, String.intercalate_singleton, String.append_assoc,
        String.append_assoc]
      rfl
    have hself : (Expr.call (.name n) [.name "x"]).selfDelimiting = true := by
      simp only [Expr.selfDelimiting, Expr.allSelfDelimiting, h]
      decide
    have hread := read_of_reads (reads_spelled hself)
    rwa [htext] at hread
  | value => exact ⟨fun h => isPlainName_of_read h rfl, fun h => read_of_reads (reads_spelled (e := .name n) h)⟩

end

end TemplateEngine

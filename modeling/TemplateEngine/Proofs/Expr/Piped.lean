/-
Sources that start with a name and a bar. Whatever text stands behind the bar, the name alone is the value of the
pipeline that is read; so texts that are read behind a bar can be joined by further bars.
-/
import TemplateEngine.Proofs.Expr.Pipeline
import TemplateEngine.Proofs.Expr.PlainNames

namespace TemplateEngine

open Text ExprGrammar

/-! ## Texts in front of a blank -/

section

variable {cs rest more : List Char} {k : ExprTokenKind}

/-- A text that starts with a blank behind the text that a token was cut from changes nothing. -/
theorem Lexeme.Longest.append (h : (Lexeme.token k).Longest cs rest) (hmore : Spaced more) :
    (Lexeme.token k).Longest cs (rest ++ more) := by
  have of_head {c : Char} {cs' : List Char} (hcs : cs = c :: cs') (hblank : isBlank c = false)
      (hquote : (c == '"' || c == '\'') = false) : (Lexeme.token k).Longest cs (rest ++ more) := by
    refine ⟨h.describes, fun {l' ds es} hl hds => ?_⟩
    rw [← List.append_assoc] at hds
    obtain ⟨us, hus, -⟩ | ⟨us, rfl, rfl⟩ := List.append_eq_append_iff.1 hds
    · exact h.length_le hl hus.symm
    · cases us with
      | nil =>
        rw [List.append_nil] at hl ⊢
        exact h.length_le hl (List.append_nil _)
      | cons u us =>
        obtain rfl := hmore u rfl
        subst hcs
        exact absurd (by simp) (hl.not_space hblank hquote)
  have hdescribes := h.describes
  cases hdescribes with
  | number hnumber =>
    obtain ⟨c, cs, rfl⟩ := List.exists_cons_of_ne_nil hnumber.ne_nil
    exact of_head rfl (isBlank_of_isDigit hnumber.head) (not_quote_of_isDigit hnumber.head)
  | quoted hq hbody =>
    -- a quoted text ends with its own quote, whatever follows
    have hlongest := longest_of_scan? (scan?_of_quotedText hq hbody (rest ++ more))
    rwa [List.take_left' (by simp), List.drop_left' (by simp)] at hlongest
  | symbol s =>
    obtain ⟨c, cs, hs, hblank, -, hquote⟩ := s.exists_chars
    exact of_head hs hblank hquote
  | word hc =>
    have hname := isNameChar_of_isNameStart hc
    exact of_head rfl (isBlank_of_isNameChar hname) (not_quote_of_isNameChar hname)

theorem Laid.append {start : Nat} {row : List Cutting} {left : List Char} (h : Laid start cs row left)
    (hleft : left = []) (hmore : Spaced more) : Laid start (cs ++ more) row more := by
  induction h with
  | nil hgap =>
    rw [hleft, List.append_nil]
    exact .nil hgap
  | cons hgap hlexeme h ih =>
    rw [List.append_assoc, List.append_assoc]
    exact .cons hgap (hlexeme.append hmore) (ih hleft)

/-- In front of a blank a source has its tokens, wherever it starts. -/
theorem Scans.of_tokenize {source : String} {ts : List ExprToken} {p : Nat}
    (h : TemplateEngine.tokenize source = .ok (ts ++ [⟨.done, p⟩])) (hmore : Spaced more) :
    Scans source.toList more fun us => ∃ k, us = ts.map (·.ahead k) := by
  obtain ⟨row, hlaid, hts⟩ := exists_laid_of_tokenize h
  obtain ⟨rfl, -⟩ := List.append_inj' hts rfl
  have hstop : 0 + (source.toList ++ more).length = source.toList.length + more.length := by
    rw [List.length_append, Nat.zero_add]
  have htokens := (hlaid.append rfl hmore).tokenizeFrom_eq hstop
  intro position
  refine ⟨_, ⟨position, rfl⟩, ?_⟩
  have hfront := tokenizeFrom_ahead position 0 (source.toList ++ more)
  have hback := tokenizeFrom_ahead position source.toList.length more
  rw [Nat.zero_add, htokens] at hfront
  rw [hfront, Nat.add_comm position, hback]
  cases tokenizeFrom source.toList.length more with
  | error e => rfl
  | ok us => exact congrArg Except.ok List.map_append

end

/-! ## A name in front of a bar -/

namespace ExprGrammar

variable {d : Dialect} {l : Level} {ts us : List ExprToken} {t u : ExprToken} {e : Expr} {n : String}

/-- Some tokens start with a name and a token that goes on with no expression, as far as there are any. -/
structure Leads (n : String) (ts : List ExprToken) : Prop where
  name : ∀ t ∈ ts.head?, t.kind = .name n
  next : ∀ t ∈ ts[1]?, continues t.kind = none

theorem Leads.left (h : Leads n (ts ++ us)) : Leads n ts where
  name t ht := h.name t (List.mem_head?_append_of_mem_head? ht)
  next t ht := h.next t (List.getElem?_append_left (List.getElem?_eq_some_iff.1 ht).1 ▸ ht)

/-- Nothing goes on with the name alone. -/
theorem Leads.ends (h : Leads n (t :: us)) {m : Level} : Ends m us := by
  intro u hu k hk
  rw [h.next u (by rwa [List.getElem?_cons_succ, ← List.head?_eq_getElem?])] at hk
  cases hk

theorem Chain.eq_of_ends {left : Expr} (h : Chain d l left ts e) (hends : Ends l ts) : ts = [] ∧ e = left := by
  cases h with
  | nil => exact ⟨rfl, rfl⟩
  | cons _ ho =>
    obtain ⟨t, us, rfl, ht⟩ := ho.continues
    exact absurd ht hends.not_continues

theorem Suffixes.eq_of_ends {target : Expr} (h : Suffixes d target ts e) (hends : Ends .postfixed ts) :
    ts = [] ∧ e = target := by
  cases h with
  | nil => exact ⟨rfl, rfl⟩
  | member ht => exact absurd (by rw [ht]; rfl) hends.not_continues
  | item ho => exact absurd (by rw [ho]; rfl) hends.not_continues
  | call ho => exact absurd (by rw [ho]; rfl) hends.not_continues

/-- An expression that starts with a name and a token that goes on with no expression is the name. -/
theorem Derives.eq_of_leads {l : Level} {ts : List ExprToken} {e : Expr} :
    Derives d l ts e → Leads n ts → (∃ t, ts = [t]) ∧ e = .name n
  | .disjunction h, hl => h.eq_of_leads hl
  | .conditional hb ht _ _ _, hl => by
    obtain ⟨⟨t, rfl⟩, -⟩ := hb.eq_of_leads hl.left
    exact absurd (by rw [ht]; rfl) (hl.ends (m := .conditional)).not_continues
  | .chain _ h hr, hl => by
    obtain ⟨⟨t, rfl⟩, rfl⟩ := h.eq_of_leads hl.left
    obtain ⟨rfl, rfl⟩ := hr.eq_of_ends hl.ends
    exact ⟨⟨t, rfl⟩, rfl⟩
  | .comparison h, hl => h.eq_of_leads hl
  | .postfixed h, hl => h.eq_of_leads hl
  | .front ht _, hl => by
    rw [hl.name _ rfl] at ht
    cases ht
  | .suffixes h hs, hl => by
    obtain ⟨⟨t, rfl⟩, rfl⟩ := h.eq_of_leads hl.left
    obtain ⟨rfl, rfl⟩ := hs.eq_of_ends hl.ends
    exact ⟨⟨t, rfl⟩, rfl⟩
  | .number hk _, hl => absurd (hk.symm.trans (hl.name _ rfl)) nofun
  | .str hk, hl => absurd (hk.symm.trans (hl.name _ rfl)) nofun
  | .constant hk _, hl => absurd (hk.symm.trans (hl.name _ rfl)) nofun
  | .name hk, hl => by
    cases hk.symm.trans (hl.name _ rfl)
    exact ⟨⟨_, rfl⟩, rfl⟩
  | .group ho _ _, hl => absurd (ho.symm.trans (hl.name _ rfl)) nofun
  | .list ho _ _, hl => absurd (ho.symm.trans (hl.name _ rfl)) nofun
  | .dict ho _ _, hl => absurd (ho.symm.trans (hl.name _ rfl)) nofun

/-- Behind a name and a bar stand filters of the name. -/
theorem Spells.of_piped (ht : t.kind = .name n) (hu : u.kind = .symbol .bar) (h : Spells d (t :: u :: us) e) :
    ∃ after, Stages d false (.name n) (u :: us) after e := by
  obtain ⟨withArgs, h⟩ := h
  have hleads : Leads n (t :: u :: us) := ⟨by rintro v ⟨⟩; exact ht, by rintro v ⟨⟩; rw [hu]; rfl⟩
  generalize hall : t :: u :: us = all at h hleads
  obtain ⟨h, hs⟩ := h
  obtain ⟨⟨v, rfl⟩, rfl⟩ := h.eq_of_leads hleads.left
  cases hall
  exact ⟨withArgs, hs⟩

theorem Stages.spells {after : Bool} (h : Stages d false (.name n) us after e) (ht : t.kind = .name n) :
    Spells d (t :: us) e :=
  ⟨after, .mk (.of_primary (.name ht)) h⟩

/-- It does not matter where the first bar stands. -/
theorem Stages.bar {before after : Bool} {value : Expr} (h : Stages d before value (t :: us) after e)
    (hu : u.kind = .symbol .bar) : Stages d before value (u :: us) after e := by
  cases h with
  | plain _ hn hs => exact .plain hu hn hs
  | withArgs _ hn hc ha hs => exact .withArgs hu hn hc ha hs

end ExprGrammar

/-! ## Texts behind a name and a bar -/

section

variable {n source source' : String} {e : Expr}

theorem scans_spacedBar (rest : List Char) : Scans " | ".toList rest (Single (.symbol .bar)) := by
  have hbar := (Scans.blank _).append ((Scans.symbol_spaced .bar rest).append (.blank rest))
  refine hbar.mono ?_
  rintro _ ⟨_, _, rfl, ⟨_, _, ⟨u, hu, rfl⟩, rfl, rfl⟩, rfl⟩
  exact ⟨u, hu, rfl⟩

theorem scans_piped (hn : isPlainName n = true) (rest : List Char) :
    Scans (n ++ " | ").toList rest (Followed (Single (.name n)) (Single (.symbol .bar))) := by
  rw [String.toList_append]
  exact (Reads.name hn _ (.space _)).append (scans_spacedBar rest)

/-- Behind a name and a bar only texts with tokens are read. -/
theorem exists_tokens_of_piped (hn : isPlainName n = true) (h : Expr.read (n ++ " | " ++ source) = .ok e) :
    ∃ ts p, tokenize source = .ok (ts ++ [⟨.done, p⟩]) := by
  obtain ⟨us, q, hall, -⟩ := Expr.exists_spelled_of_read h
  obtain ⟨ts, -, hfront⟩ := scans_piped hn source.toList 0
  unfold tokenize at hall
  rw [String.toList_append, hfront] at hall
  obtain ⟨vs, hvs, -⟩ := map_eq_ok.1 hall
  obtain ⟨ws, p, hws, -⟩ := tokenizeFrom_eq_ok (tokenizeFrom_back hvs)
  exact ⟨ws, p, by rw [tokenize, tokenizeFrom_back hvs, hws]⟩

/-- Behind a name and a bar those texts are read whose tokens, with the bar, are filters of the name. -/
theorem read_piped_iff (hn : isPlainName n = true) : Expr.read (n ++ " | " ++ source) = .ok e ↔
    ∃ ts p after, tokenize source = .ok (ts ++ [⟨.done, p⟩]) ∧
      Stages .greedy false (.name n) (⟨.symbol .bar, 0⟩ :: ts) after e := by
  have of_tokens {ts : List ExprToken} {p : Nat} (h : tokenize source = .ok (ts ++ [⟨.done, p⟩])) :
      Expr.read (n ++ " | " ++ source) = .ok e ↔
        ∃ after, Stages .greedy false (.name n) (⟨.symbol .bar, 0⟩ :: ts) after e := by
    have hscans := (scans_piped hn _).append (.of_tokenize h .nil)
    rw [← String.toList_append] at hscans
    obtain ⟨_, q, ⟨_, _, ⟨_, _, ⟨t, ht, rfl⟩, ⟨u, hu, rfl⟩, rfl⟩, ⟨k, rfl⟩, rfl⟩, hall⟩ := hscans.tokenize
    rw [read_eq_ok_iff hall]
    constructor
    · intro hs
      -- behind the name and the bar the tokens stand ahead of where they stand in the text
      obtain ⟨after, hs⟩ : ∃ after, Stages .greedy false (.name n) (u :: ts.map (ExprToken.ahead k)) after e :=
        hs.of_piped ht hu
      have hback := hs.map (f := (·.back k)) fun _ => rfl
      rw [List.map_cons, ExprToken.map_back_ahead] at hback
      exact ⟨after, hback.bar rfl⟩
    · rintro ⟨after, hs⟩
      have hahead := hs.map (f := (·.ahead k)) fun _ => rfl
      exact (hahead.bar hu).spells ht
  constructor
  · intro h
    obtain ⟨ts, p, hts⟩ := exists_tokens_of_piped hn h
    obtain ⟨after, hs⟩ := (of_tokens hts).1 h
    exact ⟨ts, p, after, hts, hs⟩
  · rintro ⟨ts, p, after, hts, hs⟩
    exact (of_tokens hts).2 ⟨after, hs⟩

/-- Whatever text is read behind a name and a bar, the name passes through stages, and they mention only names that stand
in the text. -/
theorem exists_stages_of_piped (hn : isPlainName n = true) (h : Expr.read (n ++ " | " ++ source) = .ok e) :
    ∃ stages, stages ≠ [] ∧ e = (Expr.name n).through stages ∧
      ∀ m, Stage.Mention m stages → m.toList <:+: source.toList := by
  obtain ⟨ts, p, after, hts, hs⟩ := (read_piped_iff hn).1 h
  obtain ⟨stages, rfl, hne, hnames⟩ := hs.exists_through
  refine ⟨stages, fun h => List.cons_ne_nil _ _ (hne h), rfl, fun m hm => ?_⟩
  obtain ⟨t, ht, hkind⟩ := hnames m hm
  rcases List.mem_cons.1 ht with rfl | ht
  · cases hkind
  · exact Named.infix_source hts ⟨t, List.mem_append_left _ ht, hkind⟩

/-- Texts that are read behind a name and a bar are read there with a bar between them. -/
theorem read_piped_append {stages stages' : List Stage} (hn : isPlainName n = true)
    (h : Expr.read (n ++ " | " ++ source) = .ok ((Expr.name n).through stages))
    (h' : Expr.read (n ++ " | " ++ source') = .ok ((Expr.name n).through stages')) :
    Expr.read (n ++ " | " ++ (source ++ " | " ++ source')) = .ok ((Expr.name n).through (stages ++ stages')) := by
  obtain ⟨ts, p, after, hts, hs⟩ := (read_piped_iff hn).1 h
  obtain ⟨ts', p', after', hts', hs'⟩ := (read_piped_iff hn).1 h'
  have hspaced : Spaced ((" | ".toList ++ source'.toList) ++ []) := by rintro c ⟨⟩; rfl
  have hbar : Scans (" | ".toList ++ source'.toList) [] _ := (scans_spacedBar _).append (.of_tokenize hts' .nil)
  have hscans := (Scans.of_tokenize hts hspaced).append hbar
  rw [← List.append_assoc, ← String.toList_append, ← String.toList_append] at hscans
  obtain ⟨_, q, ⟨_, _, ⟨k, rfl⟩, ⟨_, _, ⟨u, hu, rfl⟩, ⟨j, rfl⟩, rfl⟩, rfl⟩, hall⟩ := hscans.tokenize
  have hfirst := (hs.map (f := (·.ahead k)) fun _ => rfl).bar (u := ⟨.symbol .bar, 0⟩) rfl
  obtain ⟨stages'', last, hstages, hsecond⟩ := (hs'.map (f := (·.ahead j)) fun _ => rfl).rebase_through after
    ((Expr.name n).through stages)
  obtain rfl := Expr.through_name_injective hstages
  rw [← Expr.through_append] at hsecond
  exact (read_piped_iff hn).2 ⟨_, q, last, hall, hfirst.append (hsecond.bar hu)⟩

end

end TemplateEngine

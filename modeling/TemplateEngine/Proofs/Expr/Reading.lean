/-
What is read as an expression. Reading succeeds exactly on the derivations of the greedy dialect, so what is
read is derived from the documented grammar with a comma more before closing brackets at most. The converse
fails where an entry that another one follows ends with the arguments of a filter, and only there.
-/
import TemplateEngine.Proofs.Expr.Commas

namespace TemplateEngine

open ExprGrammar ExprParser

/-! ## Tokens of a source -/

theorem wordKind_ne_done (cs : List Char) : wordKind cs ≠ .done := by
  unfold wordKind
  dsimp only
  split <;> nofun

theorem scan?_ne_done {c : Char} {cs : List Char} {k : ExprTokenKind} {n : Nat}
    (h : scan? c cs = some (.token k, n)) : k ≠ .done := by
  unfold scan? at h
  split at h
  · cases h
  · split at h
    · cases h; nofun
    · split at h
      · obtain ⟨m, -, hm⟩ := Option.map_eq_some_iff.1 h
        cases hm; nofun
      · split at h
        · cases h; nofun
        · split at h
          · cases h; exact wordKind_ne_done _
          · cases h

/-- The tokens of a source are those of its lexemes and `done` after them. -/
theorem tokenizeFrom_eq_ok {position : Nat} {cs : List Char} {ts : List ExprToken}
    (h : tokenizeFrom position cs = .ok ts) :
    ∃ us p, ts = us ++ [⟨.done, p⟩] ∧ ∀ t ∈ us, t.kind ≠ .done := by
  fun_induction tokenizeFrom position cs generalizing ts with
  | case1 position =>
    cases h
    exact ⟨[], position, rfl, fun _ ht => nomatch ht⟩
  | case2 => cases h
  | case3 position c cs n hscan ih => exact ih h
  | case4 position c cs k n hscan ih =>
    obtain ⟨us, hus, h₁⟩ := bind_eq_ok.1 h
    cases h₁
    obtain ⟨vs, p, rfl, hvs⟩ := ih hus
    refine ⟨⟨k, position⟩ :: vs, p, rfl, ?_⟩
    intro t ht
    rcases List.mem_cons.1 ht with rfl | ht
    · exact scan?_ne_done hscan
    · exact hvs t ht

/-! ## The greedy dialect is what is read -/

section

variable {ts : List ExprToken} {p : Nat} {e : Expr}

/-- With the end after them, the tokens of a derivation are read as its expression. -/
theorem ofTokens?_of_spells (h : Spells .greedy ts e) : Expr.ofTokens? (ts ++ [⟨.done, p⟩]) = .ok e := by
  obtain ⟨withArgs, h⟩ := h
  have hstops : Stops withArgs [⟨.done, p⟩] := by
    rintro t ⟨⟩
    exact .inr (.inl rfl)
  have hparse := h.parses _ _ (Nat.le_refl _) hstops
  obtain ⟨t, us, rfl, ht⟩ := h.starts
  unfold Expr.ofTokens?
  split
  · rename_i hu
    cases hu
    exact absurd ht (Level.Starts.of_none rfl)
  · rw [hparse]
    rfl

/-- What is read is derived: the first `done` ends the tokens that are taken, as no expression ends with it. -/
theorem spells_of_ofTokens? (hts : ∀ t ∈ ts, t.kind ≠ .done)
    (h : Expr.ofTokens? (ts ++ [⟨.done, p⟩]) = .ok e) : Spells .greedy ts e := by
  unfold Expr.ofTokens? at h
  split at h
  · cases h
  · obtain ⟨⟨e', rest⟩, he, h₁⟩ := bind_eq_ok.1 h
    obtain ⟨us, withArgs, hus, hp, -⟩ := (nesting_takes _).element _ _ _ (Nat.le_refl _) he
    dsimp only at h₁
    split at h₁
    · rename_i q rest₁
      cases h₁
      -- the `done` that stopped the parser is the one at the end, or one before it, which there is not
      obtain ⟨vs, rfl, hvs⟩ | ⟨vs, rfl, hvs⟩ := List.append_eq_append_iff.1 hus
      · cases vs with
        | nil => exact ⟨withArgs, by rwa [List.append_nil] at hp⟩
        | cons v vs =>
          rw [List.cons_append] at hvs
          obtain ⟨rfl, hvs⟩ := List.cons.inj hvs
          exact absurd hvs (by simp)
      · cases vs with
        | nil => exact ⟨withArgs, by rwa [List.append_nil]⟩
        | cons v vs =>
          rw [List.cons_append] at hvs
          obtain ⟨rfl, -⟩ := List.cons.inj hvs
          exact absurd rfl (hts ⟨.done, q⟩ (by simp))
    · cases h₁
    · rw [List.append_nil] at hus
      have hlast : (⟨.done, p⟩ : ExprToken) ∈ us.getLast? := by rw [← hus, List.getLast?_append]; rfl
      cases hp.finished _ hlast

end

/-- A source is read as an expression exactly if its tokens are derived in the greedy dialect. -/
theorem read_eq_ok_iff {source : String} {ts : List ExprToken} {p : Nat} {e : Expr}
    (h : tokenize source = .ok (ts ++ [⟨.done, p⟩])) : Expr.read source = .ok e ↔ Spells .greedy ts e := by
  have hts : ∀ t ∈ ts, t.kind ≠ .done := by
    obtain ⟨us, q, hus, hne⟩ := tokenizeFrom_eq_ok h
    obtain ⟨rfl, -⟩ := List.append_inj' hus rfl
    exact hne
  unfold Expr.read
  rw [h]
  exact ⟨spells_of_ofTokens? hts, ofTokens?_of_spells⟩

/-! ## The documented grammar -/

namespace ExprGrammar

theorem includes_trailingComma : Dialect.trailingComma.Includes .greedy :=
  ⟨fun _ _ => trivial, fun _ _ => trivial⟩

theorem includes_closedEntries : Dialect.closedEntries.Includes .greedy :=
  ⟨fun _ _ => trivial, fun _ h => h⟩

theorem Spells.includes {d d' : Dialect} {ts : List ExprToken} {e : Expr} (h : Spells d ts e) (hd : d'.Includes d)
    (ht : Spared d d' ts) : Spells d' ts e := by
  obtain ⟨withArgs, h⟩ := h
  exact ⟨withArgs, h.includes hd ht⟩

/-- A constant or a name is an expression of all levels. -/
theorem Derives.of_primary {d : Dialect} {ts : List ExprToken} {e : Expr} (h : Derives d .primary ts e) :
    Derives d .conditional ts e :=
  h.loosen (by decide)

theorem Derives.of_name {d : Dialect} (n : String) (p : Nat) : Derives d .conditional [⟨.name n, p⟩] (.name n) :=
  .of_primary (.name rfl)

theorem Pipeline.of_name {d : Dialect} (n : String) (p : Nat) : Pipeline d false [⟨.name n, p⟩] (.name n) :=
  .mk (.of_name n p) .nil

/-- A name and a filter with a name as its argument. -/
theorem Pipeline.withArgument {d : Dialect} (n filter argument : String) (p q r s v : Nat) :
    Pipeline d true
      [⟨.name n, p⟩, ⟨.symbol .bar, q⟩, ⟨.name filter, r⟩, ⟨.symbol .colon, s⟩, ⟨.name argument, v⟩]
      (.filter (.name n) filter [.name argument]) := by
  have hs := @Stages.withArgs d ⟨.symbol .bar, q⟩ ⟨.name filter, r⟩ ⟨.symbol .colon, s⟩ _ _ filter false true (.name n) _ _
    rfl rfl rfl (.one (.of_name argument v)) .nil
  exact .mk (.of_name n p) hs

end ExprGrammar

/-- What is read has tokens, and these are derived in the greedy dialect. -/
theorem Expr.exists_spelled_of_read {source : String} {e : Expr} (h : Expr.read source = .ok e) :
    ∃ ts p, tokenize source = .ok (ts ++ [⟨.done, p⟩]) ∧ Spells .greedy ts e := by
  cases ht : tokenize source with
  | error err =>
    unfold Expr.read at h
    rw [ht] at h
    cases h
  | ok us =>
    obtain ⟨ts, p, rfl, -⟩ := tokenizeFrom_eq_ok ht
    exact ⟨ts, p, rfl, (read_eq_ok_iff ht).1 h⟩

/-- Whatever is read is derived from the documented grammar with a further comma before closing brackets,
and is the expression that the derivation gives. -/
theorem Expr.spells_of_read {source : String} {e : Expr} (h : Expr.read source = .ok e) :
    ∃ ts p, tokenize source = .ok (ts ++ [⟨.done, p⟩]) ∧ Spells .trailingComma ts e := by
  obtain ⟨ts, p, hts, hg⟩ := Expr.exists_spelled_of_read h
  exact ⟨ts, p, hts, hg.includes includes_trailingComma (.inl fun _ _ => trivial)⟩

theorem Expr.spells_of_read_mixed :
    ∃ ts p, tokenize "not a || b - 1 - c.d if e else f | g: h, [2,]" = .ok (ts ++ [⟨.done, p⟩]) ∧
      Spells .trailingComma ts
        (.filter
          (.conditional
            (.logical .or (.not (.name "a"))
              (.binary .sub (.binary .sub (.name "b") (.literal (.int 1))) (.member (.name "c") "d")))
            (.name "e") (.name "f"))
          "g" [.name "h", .list [.literal (.int 2)]]) :=
  Expr.spells_of_read (by with_unfolding_all rfl)

/-- Tokens derived from the documented grammar are read exactly if they have a derivation in which no entry
before another one ends with the arguments of a filter; elements may end so anywhere. -/
theorem Expr.read_succeeds_iff {source : String} {ts : List ExprToken} {p : Nat}
    (h : tokenize source = .ok (ts ++ [⟨.done, p⟩])) (hg : ∃ e, Spells .plain ts e) :
    (∃ e, Expr.read source = .ok e) ↔ ∃ e, Spells .closedEntries ts e := by
  constructor
  · rintro ⟨e, he⟩
    obtain ⟨e', withArgs, hplain⟩ := hg
    -- the greedy derivation may be another one than the given one, but it has the same tokens, and these
    -- leave no comma before a closing bracket
    have htidy : Tidy ts := hplain.tidy fun _ hf => hf
    have hgreedy := (read_eq_ok_iff h).1 he
    exact ⟨e, hgreedy.includes includes_closedEntries (.inr htidy)⟩
  · rintro ⟨e, withArgs, hclosed⟩
    obtain ⟨e', hgreedy⟩ := hclosed.settle
    exact ⟨e', (read_eq_ok_iff h).2 ⟨withArgs, hgreedy⟩⟩

/-- In a list the element after the arguments of a filter becomes an argument. -/
theorem Expr.read_succeeds_iff_list :
    Expr.read "[a | f: b, c]" = .ok (.list [.filter (.name "a") "f" [.name "b", .name "c"]]) ∧
      ∃ e, Spells .closedEntries
        [⟨.symbol .bracketOpen, 0⟩, ⟨.name "a", 1⟩, ⟨.symbol .bar, 3⟩, ⟨.name "f", 5⟩, ⟨.symbol .colon, 6⟩,
          ⟨.name "b", 8⟩, ⟨.symbol .comma, 9⟩, ⟨.name "c", 11⟩, ⟨.symbol .bracketClose, 12⟩] e := by
  have hfirst := Pipeline.withArgument (d := .plain) "a" "f" "b" 1 3 5 6 8
  have hitems := Items.cons hfirst trivial (t := ⟨.symbol .comma, 9⟩) rfl (.one (.of_name "c" 11))
  have hlist := Derives.list (o := ⟨.symbol .bracketOpen, 0⟩) (c := ⟨.symbol .bracketClose, 12⟩) rfl (.items hitems) rfl
  have hread : Expr.read "[a | f: b, c]" = .ok (.list [.filter (.name "a") "f" [.name "b", .name "c"]]) := by
    with_unfolding_all rfl
  have hiff := @Expr.read_succeeds_iff "[a | f: b, c]" _ 13 (by with_unfolding_all rfl)
    ⟨_, false, .mk hlist.of_primary .nil⟩
  exact ⟨hread, hiff.1 ⟨_, hread⟩⟩

/-- A mapping in which an entry before another one ends with the arguments of a filter is derived from the
documented grammar, and is not read: the key of the next entry is taken for an argument. -/
theorem Expr.read_rejects_entry_after_arguments :
    ∃ ts p, tokenize "\x7ba: b | f: c, d: e\x7d" = .ok (ts ++ [⟨.done, p⟩]) ∧ (∃ e, Spells .plain ts e) ∧
      ¬ ∃ e, Expr.read "\x7ba: b | f: c, d: e\x7d" = .ok e := by
  have hvalue := Pipeline.withArgument (d := .plain) "b" "f" "c" 4 6 8 9 11
  have hlast := Entries.one (d := .plain) (.of_name "d" 14) (t := ⟨.symbol .colon, 15⟩) rfl (.of_name "e" 17)
  have hentries := Entries.cons (.of_name "a" 1) (t := ⟨.symbol .colon, 2⟩) rfl hvalue trivial
    (u := ⟨.symbol .comma, 12⟩) rfl hlast
  have hdict := Derives.dict (o := ⟨.symbol .braceOpen, 0⟩) (c := ⟨.symbol .braceClose, 18⟩) rfl (.entries hentries) rfl
  have hread : Expr.read "\x7ba: b | f: c, d: e\x7d" = .error (.malformed ⟨.closing .braceClose, 15⟩) := by
    with_unfolding_all rfl
  refine ⟨_, 19, ?_, ⟨_, false, .mk hdict.of_primary .nil⟩, ?_⟩
  · with_unfolding_all rfl
  · rintro ⟨e, he⟩
    rw [hread] at he
    cases he

end TemplateEngine

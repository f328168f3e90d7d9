/-
The candidates of a case. Its signature is read between square brackets, so that it is a row of pipelines with commas
between them exactly where the case has a list for its candidates. A signature may close the bracket in front of it
though, and is then read as another expression that starts with a list.
-/
import TemplateEngine.Proofs.Expr.Brackets
import TemplateEngine.Proofs.Expr.Trim
import TemplateEngine.Proofs.Tag.Switch

namespace TemplateEngine

open Text ExprGrammar

variable {source : String} {ts : List ExprToken} {p : Nat} {e : Expr}

/-! ## Sources between brackets -/

theorem tokenizeFrom_bracketed (cs : List Char) : tokenizeFrom 0 ('[' :: (cs ++ [']'])) =
    tokenizeFrom 1 cs >>= fun ts => .ok (⟨.symbol .bracketOpen, 0⟩ ::
      (ts.dropLast ++ [⟨.symbol .bracketClose, 1 + cs.length⟩, ⟨.done, 1 + cs.length + 1⟩])) := by
  have haside : Aside [']'] := by constructor <;> simp <;> decide
  have hclose (q : Nat) : tokenizeFrom q [']'] = .ok [⟨.symbol .bracketClose, q⟩, ⟨.done, q + 1⟩] := by
    have hscan : scan? ']' [] = some (.token (.symbol .bracketClose), 0) := rfl
    rw [tokenizeFrom, hscan]
    dsimp only
    rw [List.drop_zero, tokenizeFrom]
    rfl
  have hopen : scan? '[' (cs ++ [']']) = some (.token (.symbol .bracketOpen), 0) := rfl
  rw [tokenizeFrom, hopen]
  dsimp only
  rw [List.drop_zero, haside.tokenizeFrom_append (by simp; decide), hclose]
  cases tokenizeFrom 1 cs <;> rfl

/-- A source between square brackets has the tokens of the source between those of the brackets. -/
theorem tokenize_bracketed (h : tokenize source = .ok (ts ++ [⟨.done, p⟩])) :
    tokenize ("[" ++ source ++ "]") = .ok ((⟨.symbol .bracketOpen, 0⟩ :: (ts.map (·.ahead 1) ++
      [⟨.symbol .bracketClose, 1 + source.toList.length⟩])) ++ [⟨.done, 1 + source.toList.length + 1⟩]) := by
  have hchars : ("[" ++ source ++ "]").toList = '[' :: (source.toList ++ [']']) := by simp
  have hahead : tokenizeFrom 1 source.toList = .ok (ts.map (·.ahead 1) ++ [⟨.done, p + 1⟩]) := by
    rw [tokenize] at h
    rw [tokenizeFrom_ahead 1 0, h]
    exact congrArg Except.ok List.map_append
  rw [tokenize, hchars, tokenizeFrom_bracketed, hahead, ok_bind, List.dropLast_concat]
  simp

/-- A source that is read between square brackets has tokens itself. -/
theorem exists_tokens_of_bracketed (h : Expr.read ("[" ++ source ++ "]") = .ok e) :
    ∃ ts p, tokenize source = .ok (ts ++ [⟨.done, p⟩]) := by
  obtain ⟨us, q, hus, -⟩ := Expr.exists_spelled_of_read h
  have hchars : ("[" ++ source ++ "]").toList = '[' :: (source.toList ++ [']']) := by simp
  rw [tokenize, hchars, tokenizeFrom_bracketed] at hus
  obtain ⟨vs, hvs, -⟩ := bind_eq_ok.1 hus
  have hback : tokenizeFrom 0 source.toList = .ok (vs.map (·.back 1)) := tokenizeFrom_back (k := 1) hvs
  obtain ⟨ts, p, hts, -⟩ := tokenizeFrom_eq_ok hback
  exact ⟨ts, p, by rw [tokenize, hback, hts]⟩

/-- A source without tokens is blank. -/
theorem blank_of_tokenizeFrom {cs : List Char} {position : Nat} {t : ExprToken}
    (h : tokenizeFrom position cs = .ok [t]) : ∀ c ∈ cs, isBlank c = true := by
  fun_induction tokenizeFrom position cs with
  | case1 => exact List.forall_mem_nil _
  | case2 => cases h
  | case3 position c cs n hscan ih =>
    have hc : isBlank c = true := by
      by_contra hc
      exact scan?_ne_blank (by simpa using hc) cs n hscan
    rw [scan?_of_blank hc] at hscan
    cases hscan
    have hcs : cs = cs.takeWhile isBlank ++ cs.drop (runLength isBlank cs) :=
      (List.prefix_iff_eq_append.1 (List.takeWhile_prefix _)).symm
    intro d hd
    rcases List.mem_cons.1 hd with rfl | hd
    · exact hc
    · rw [hcs] at hd
      rcases List.mem_append.1 hd with hd | hd
      · exact List.mem_takeWhile_imp hd
      · exact ih h d hd
  | case4 position c cs k n hscan ih =>
    obtain ⟨us, hus, h⟩ := bind_eq_ok.1 h
    obtain ⟨vs, q, rfl, -⟩ := tokenizeFrom_eq_ok hus
    cases vs <;> cases h

theorem blank_iff (h : tokenize source = .ok (ts ++ [⟨.done, p⟩])) : blank source = true ↔ ts = [] := by
  rw [blank, List.all_eq_true]
  constructor
  · intro hblank
    have hnone := tokenizeFrom_blanks hblank 0 []
    rw [List.append_nil, tokenizeFrom] at hnone
    have hdone : [] ++ [⟨.done, 0 + source.toList.length⟩] = ts ++ [⟨.done, p⟩] := Except.ok.inj (hnone.symm.trans h)
    exact (List.append_inj' hdone rfl).1.symm
  · rintro rfl
    exact blank_of_tokenizeFrom h

/-- What is read of a source between square brackets is spelled by the tokens of the source between two brackets. -/
theorem spells_of_read_bracketed (h : tokenize source = .ok (ts ++ [⟨.done, p⟩]))
    (hread : Expr.read ("[" ++ source ++ "]") = .ok e) :
    ∃ c, Spells .greedy (⟨.symbol .bracketOpen, 0⟩ :: (ts ++ [c])) e := by
  obtain ⟨withArgs, hp⟩ := (read_eq_ok_iff (tokenize_bracketed h)).1 hread
  have hback := hp.map (f := (·.back 1)) fun _ => rfl
  rw [List.map_cons, List.map_append, ExprToken.map_back_ahead] at hback
  exact ⟨_, withArgs, hback⟩

/-- A source whose tokens are those of elements is read between square brackets as the list of them. -/
theorem read_bracketed_of_elements {es : List Expr} (h : tokenize source = .ok (ts ++ [⟨.done, p⟩]))
    (hes : Elements .greedy ts es) : Expr.read ("[" ++ source ++ "]") = .ok (.list es) :=
  (read_eq_ok_iff (tokenize_bracketed h)).2 ((hes.map (f := (·.ahead 1)) fun _ => rfl).spells rfl rfl)

namespace SwitchTag

theorem readArgs_case_eq_ok {signature : String} {role : TagRole} {args : TagArgs} :
    readArgs "case" role signature = .ok args ↔
      blank signature = false ∧ ∃ e, Expr.read ("[" ++ signature ++ "]") = .ok e ∧ args = .expr e := by
  have hdef : readArgs "case" role signature = (requireSignature "case" signature >>= fun source =>
    readExpr ("[" ++ source ++ "]") >>= fun e => .ok (.expr e)) := rfl
  rw [hdef, requireSignature]
  cases hb : blank signature with
  | true => simp
  | false =>
    simp only [Bool.false_eq_true, if_false, ok_bind, true_and, bind_eq_ok, readExpr, mapError_eq_ok, Except.ok.injEq]
    exact exists_congr fun e => and_congr_right fun _ => eq_comm

/-- A case has a list for its candidates exactly if its signature is a row of pipelines with commas between them, and a
further one at the end perhaps; these are then the items. Any other signature that is taken closes the bracket in front
of it, and so is read as an expression that is no list. -/
theorem candidates_list_iff (signature : String) (role : TagRole) :
    (∀ es, readArgs "case" role signature = .ok (.expr (.list es)) ↔
      es ≠ [] ∧ ∃ ts p, tokenize signature = .ok (ts ++ [⟨.done, p⟩]) ∧ Elements .greedy ts es) ∧
    ∀ args, readArgs "case" role signature = .ok args → ∃ e ts p, args = .expr e ∧
      tokenize signature = .ok (ts ++ [⟨.done, p⟩]) ∧ ((∃ es, e = .list es) ↔ StaysInside ts) := by
  refine ⟨fun es => ⟨fun h => ?_, ?_⟩, fun args h => ?_⟩
  · obtain ⟨hblank, e, hread, he⟩ := readArgs_case_eq_ok.1 h
    cases he
    obtain ⟨ts, p, hts⟩ := exists_tokens_of_bracketed hread
    obtain ⟨c, hspells⟩ := spells_of_read_bracketed hts hread
    rcases Spells.bracketed rfl hspells with ⟨-, es', hes', hes⟩ | ⟨-, hne⟩
    · cases hes'
      have hne : es ≠ [] := by
        rw [Ne, hes.eq_nil_iff, ← blank_iff hts, hblank]
        exact Bool.false_ne_true
      exact ⟨hne, ts, p, hts, hes⟩
    · exact absurd rfl (hne es)
  · rintro ⟨hne, ts, p, hts, hes⟩
    have hblank : blank signature = false := by
      rwa [← Bool.not_eq_true, blank_iff hts, ← hes.eq_nil_iff]
    exact readArgs_case_eq_ok.2 ⟨hblank, _, read_bracketed_of_elements hts hes, rfl⟩
  · obtain ⟨hblank, e, hread, rfl⟩ := readArgs_case_eq_ok.1 h
    obtain ⟨ts, p, hts⟩ := exists_tokens_of_bracketed hread
    obtain ⟨c, hspells⟩ := spells_of_read_bracketed hts hread
    refine ⟨e, ts, p, rfl, hts, ?_⟩
    rcases Spells.bracketed rfl hspells with ⟨hinside, es, rfl, -⟩ | ⟨hinside, hne⟩
    · exact ⟨fun _ => hinside, fun _ => ⟨es, rfl⟩⟩
    · exact ⟨fun ⟨es, hes⟩ => absurd hes (hne es), fun h => absurd h hinside⟩

theorem candidates_list_iff_two :
    readArgs "case" .inside "a, b[0] | f: 1" =
        .ok (.expr (.list [.name "a", .filter (.item (.name "b") (.literal (.int 0))) "f" [.literal (.int 1)]])) ∧
      ∃ ts p, tokenize "a, b[0] | f: 1" = .ok (ts ++ [⟨.done, p⟩]) ∧ StaysInside ts := by
  have hread : readArgs "case" .inside "a, b[0] | f: 1" =
      .ok (.expr (.list [.name "a", .filter (.item (.name "b") (.literal (.int 0))) "f" [.literal (.int 1)]])) := by
    with_unfolding_all rfl
  obtain ⟨e, ts, p, he, hts, hinside⟩ := (candidates_list_iff "a, b[0] | f: 1" .inside).2 _ hread
  cases he
  exact ⟨hread, ts, p, hts, hinside.1 ⟨_, rfl⟩⟩

/-- A signature that closes the bracket in front of it, and asks for an item of the list. -/
theorem candidates_item : ∃ signature e, readArgs "case" .inside signature = .ok (.expr e) ∧ ∀ es, e ≠ .list es := by
  refine ⟨"'abc'][0", .item (.list [.literal (.str "abc")]) (.literal (.int 0)), ?_, nofun⟩
  with_unfolding_all rfl

end SwitchTag

end TemplateEngine

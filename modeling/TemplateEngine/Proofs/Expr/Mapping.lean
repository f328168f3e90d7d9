/-
Mappings by literal and by function. A mapping expression adds an entry as soon as its key and value are evaluated, and
the function `dict` adds all entries after all arguments have been evaluated. Both give the same mapping: each key as it was
spelled first, in the place where it was given first, with the value that it was given last. They describe a key that is
none in different words, and only the literal has to show it.
-/
import TemplateEngine.Callable.Builtin
import TemplateEngine.Expr.Parser
import TemplateEngine.Proofs.Expr.Faults

namespace TemplateEngine

/-! ## Entries in the order in which they are given -/

/-- Adds entries to those that are there. -/
def insertEntries (done : List (Value × Value)) (given : List (Value × Value)) : List (Value × Value) :=
  given.foldl (fun entries e => insertEntry e.1 e.2 entries) done

/-- The value that is given last for a key, or else the one that it has. -/
def lastGiven (key value : Value) (given : List (Value × Value)) : Value :=
  ((given.filter fun e => e.1.same key).getLast?.map (·.2)).getD value

theorem lastGiven_cons (key value : Value) (e : Value × Value) (given : List (Value × Value)) :
    lastGiven key value (e :: given) = lastGiven key (if e.1.same key then e.2 else value) given := by
  unfold lastGiven
  rw [List.filter_cons]
  split
  · rw [List.getLast?_cons]
    cases (given.filter fun e => e.1.same key).getLast? <;> rfl
  · rfl

/-- The mapping of the entries that are given: each key as it is spelled first, with the value that is given last for it. -/
def entriesOf : List (Value × Value) → List (Value × Value)
  | [] => []
  | (key, value) :: given =>
    (key, lastGiven key value given) :: entriesOf (given.filter fun e => !e.1.same key)
  termination_by given => given.length
  decreasing_by
    rw [List.length_unattach]
    exact Nat.lt_succ_of_le (Nat.le_trans (List.length_filter_le ..) (Nat.le_of_eq List.length_attach))

/-- The first entry takes the values of all keys that are the same, and the others go on to the entries after it. -/
theorem insertEntries_cons (key value : Value) (done given : List (Value × Value)) :
    insertEntries ((key, value) :: done) given =
      (key, lastGiven key value given) :: insertEntries done (given.filter fun e => !e.1.same key) := by
  induction given generalizing value done with
  | nil => rfl
  | cons e given ih =>
    have hstep : insertEntries ((key, value) :: done) (e :: given) =
        insertEntries (insertEntry e.1 e.2 ((key, value) :: done)) given := rfl
    rw [hstep, lastGiven_cons, insertEntry, List.filter_cons]
    cases e.1.same key with
    | true => exact ih e.2 done
    | false => exact ih value (insertEntry e.1 e.2 done)

theorem insertEntries_nil (given : List (Value × Value)) : insertEntries [] given = entriesOf given := by
  induction hn : given.length using Nat.strongRecOn generalizing given with
  | _ n ih =>
    cases given with
    | nil => rw [entriesOf]; rfl
    | cons e given =>
      obtain ⟨key, value⟩ := e
      have hlt : (given.filter fun e => !e.1.same key).length < n :=
        hn ▸ Nat.lt_succ_of_le (List.length_filter_le ..)
      have hstep : insertEntries [] ((key, value) :: given) = insertEntries [(key, value)] given := rfl
      rw [entriesOf, hstep, insertEntries_cons, ih _ hlt _ rfl]

/-! ## Keys and values in turns -/

/-- Keys and values in turns. -/
def alternating {α : Type} (pairs : List (α × α)) : List α :=
  pairs.flatMap fun p => [p.1, p.2]

/-- All of the keys may be keys. -/
def KeysFit (given : List (Value × Value)) : Prop :=
  ∀ e ∈ given, e.1.checkKey = .ok ()

/-- Some of the keys may be no key, and the first one of these fails. -/
structure FirstMisfit (given : List (Value × Value)) (key : Value) (f : Fault) : Prop where
  check : key.checkKey = .error f
  first : ∃ before value after, given = before ++ (key, value) :: after ∧ KeysFit before

theorem keysFit_or_misfit (given : List (Value × Value)) : KeysFit given ∨ ∃ key f, FirstMisfit given key f := by
  induction given with
  | nil => exact .inl (List.forall_mem_nil _)
  | cons e given ih =>
    cases hk : e.1.checkKey with
    | error f => exact .inr ⟨e.1, f, hk, [], e.2, given, rfl, List.forall_mem_nil _⟩
    | ok u =>
      rcases ih with h | ⟨key, f, hf, before, value, after, rfl, hb⟩
      · exact .inl (List.forall_mem_cons.2 ⟨hk, h⟩)
      · exact .inr ⟨key, f, hf, e :: before, value, after, rfl, List.forall_mem_cons.2 ⟨hk, hb⟩⟩

namespace BuiltinFunction

theorem addAlternating_append {before : List (Value × Value)} (h : KeysFit before) (done : List (Value × Value))
    (rest : List Value) :
    addAlternating done (alternating before ++ rest) = addAlternating (insertEntries done before) rest := by
  induction before generalizing done with
  | nil => rfl
  | cons e before ih =>
    obtain ⟨he, hbefore⟩ := List.forall_mem_cons.1 h
    show addAlternating done (e.1 :: e.2 :: (alternating before ++ rest)) = _
    rw [addAlternating, addEntry, he]
    exact ih hbefore (insertEntry e.1 e.2 done)

theorem addAlternating_of_keysFit {given : List (Value × Value)} (h : KeysFit given) :
    addAlternating [] (alternating given) = .ok (entriesOf given) := by
  have := addAlternating_append h [] []
  rw [List.append_nil] at this
  rw [this, insertEntries_nil, addAlternating]
  nofun

theorem addAlternating_of_misfit {given : List (Value × Value)} {key : Value} {f : Fault} (h : FirstMisfit given key f) :
    addAlternating [] (alternating given) = .error f := by
  obtain ⟨hf, before, value, after, rfl, hb⟩ := h
  have hgiven : alternating (before ++ (key, value) :: after) =
      alternating before ++ key :: value :: alternating after := List.flatMap_append
  rw [hgiven, addAlternating_append hb, addAlternating, addEntry, hf]
  rfl

/-- With two arguments for each entry, the function gives the mapping of all entries. -/
theorem mapping_alternating {given : List (Value × Value)} (h : given ≠ []) :
    mapping (alternating given) = Value.dict <$> addAlternating [] (alternating given) := by
  have hlength (given : List (Value × Value)) : (alternating given).length = 2 * given.length := by
    induction given with
    | nil => rfl
    | cons e given ih =>
      show (alternating given).length + 2 = _
      rw [ih, List.length_cons]
      omega
  obtain ⟨e, given, rfl⟩ := List.exists_cons_of_ne_nil h
  have heven : (alternating (e :: given)).length % 2 ≠ 1 := by
    rw [hlength]
    omega
  have hargs : alternating (e :: given) = e.1 :: e.2 :: alternating given := rfl
  rw [hargs] at heven ⊢
  unfold mapping
  split
  · rename_i h
    cases (List.cons.inj h).2
  · rename_i h
    cases (List.cons.inj h).2
  · rw [if_neg (by simpa using heven)]

end BuiltinFunction

namespace Evaluator

variable {ev : Evaluator} {s : Scope}

/-! ## Values of keys and values -/

/-- The values of the keys and values of a mapping expression, from left to right, whether the keys fit or not. -/
def evalPairs (ev : Evaluator) (s : Scope) : List (Expr × Expr) → Except Failure (List (Value × Value))
  | [] => .ok []
  | (key, value) :: rest => do
    let k ← ev.eval s key
    let v ← ev.eval (s.holding k) value
    return (k, v) :: (← evalPairs ev ((s.holding k).holding v) rest)

theorem evalAll_alternating (pairs : List (Expr × Expr)) (s : Scope) :
    ev.evalAll s (alternating pairs) = alternating <$> ev.evalPairs s pairs := by
  induction pairs generalizing s with
  | nil => rfl
  | cons p pairs ih =>
    show ev.evalAll s (p.1 :: p.2 :: alternating pairs) = _
    rw [evalAll, evalPairs]
    cases ev.eval s p.1 with
    | error e => rfl
    | ok k =>
      rw [ok_bind, ok_bind, evalAll]
      cases ev.eval (s.holding k) p.2 with
      | error e => rfl
      | ok v =>
        rw [ok_bind, ok_bind, ih]
        cases ev.evalPairs ((s.holding k).holding v) pairs <;> rfl

theorem length_evalPairs {pairs : List (Expr × Expr)} {given : List (Value × Value)}
    (h : ev.evalPairs s pairs = .ok given) : given.length = pairs.length := by
  induction pairs generalizing s given with
  | nil => cases h; rfl
  | cons p pairs ih =>
    obtain ⟨k, -, h⟩ := bind_eq_ok.1 h
    obtain ⟨v, -, h⟩ := bind_eq_ok.1 h
    obtain ⟨rest, hrest, h⟩ := bind_eq_ok.1 h
    cases h
    exact congrArg (· + 1) (ih hrest)

/-! ## Mapping expressions -/

/-- The failure of a mapping expression at a key that does not fit, which has to be shown. -/
def misfitFailure (key : Value) (f : Fault) : Except Failure (List (Value × Value)) := do
  let shown ← liftFault key.quotedForm
  .error (.evaluation (.dictKey shown f))

/-- A mapping expression whose keys and values have values: the first key that does not fit is its failure. -/
theorem evalEntries_of_evalPairs {pairs : List (Expr × Expr)} {given : List (Value × Value)}
    (h : ev.evalPairs s pairs = .ok given) (done : List (Value × Value)) :
    (KeysFit given → ev.evalEntries s done pairs = .ok (insertEntries done given)) ∧
      ∀ key f, FirstMisfit given key f → ev.evalEntries s done pairs = misfitFailure key f := by
  induction pairs generalizing s given done with
  | nil =>
    cases h
    refine ⟨fun _ => rfl, ?_⟩
    rintro key f ⟨-, before, value, after, hnil, -⟩
    exact absurd hnil (by simp)
  | cons p pairs ih =>
    obtain ⟨k, hk, h⟩ := bind_eq_ok.1 h
    obtain ⟨v, hv, h⟩ := bind_eq_ok.1 h
    obtain ⟨rest, hrest, h⟩ := bind_eq_ok.1 h
    cases h
    rw [evalEntries, hk, ok_bind, hv, ok_bind]
    cases hcheck : k.checkKey with
    | ok u =>
      obtain ⟨hfit, hmisfit⟩ := ih hrest (insertEntry k v done)
      refine ⟨fun hall => hfit (List.forall_mem_cons.1 hall).2, ?_⟩
      rintro key f ⟨hf, before, value, after, hgiven, hb⟩
      -- this key fits, so that the first one that does not stands behind it
      refine hmisfit key f ⟨hf, ?_⟩
      cases before with
      | nil =>
        cases hgiven
        cases hcheck.symm.trans hf
      | cons e before =>
        cases hgiven
        exact ⟨before, value, after, rfl, (List.forall_mem_cons.1 hb).2⟩
    | error f =>
      refine ⟨fun hall => ?_, ?_⟩
      · cases hcheck.symm.trans (List.forall_mem_cons.1 hall).1
      · rintro key f' ⟨hf, before, value, after, hgiven, hb⟩
        cases before with
        | nil =>
          cases hgiven
          cases hcheck.symm.trans hf
          rfl
        | cons e before =>
          cases hgiven
          cases hcheck.symm.trans (List.forall_mem_cons.1 hb).1

/-- A mapping expression that has a value has values for all of its keys and values. -/
theorem evalPairs_of_evalEntries {pairs : List (Expr × Expr)} {done entries : List (Value × Value)}
    (h : ev.evalEntries s done pairs = .ok entries) : ∃ given, ev.evalPairs s pairs = .ok given := by
  induction pairs generalizing s done with
  | nil => exact ⟨[], rfl⟩
  | cons p pairs ih =>
    rw [evalEntries] at h
    obtain ⟨k, hk, h⟩ := bind_eq_ok.1 h
    obtain ⟨v, hv, h⟩ := bind_eq_ok.1 h
    split at h
    · obtain ⟨rest, hrest⟩ := ih h
      exact ⟨(k, v) :: rest, by rw [evalPairs, hk, ok_bind, hv, ok_bind, hrest]; rfl⟩
    · exact absurd h shown_ne_ok

theorem eval_dict_of_keysFit {pairs : List (Expr × Expr)} {given : List (Value × Value)}
    (h : ev.evalPairs s pairs = .ok given) (hfit : KeysFit given) :
    ev.eval s (.dict pairs) = .ok (.dict (entriesOf given)) := by
  rw [eval, (evalEntries_of_evalPairs h []).1 hfit, insertEntries_nil]
  rfl

theorem eval_dict_of_misfit {pairs : List (Expr × Expr)} {given : List (Value × Value)} {key : Value} {f : Fault}
    (h : ev.evalPairs s pairs = .ok given) (hmisfit : FirstMisfit given key f) :
    ev.eval s (.dict pairs) = liftFault key.quotedForm >>= fun shown => .error (.evaluation (.dictKey shown f)) := by
  rw [eval, (evalEntries_of_evalPairs h []).2 key f hmisfit, misfitFailure, bind_assoc]
  rfl

/-! ## Calls of the function -/

/-- The call of `dict` with the keys and values of a mapping expression for arguments. -/
def dictCall (pairs : List (Expr × Expr)) : Expr :=
  .call (.name "dict") (alternating pairs)

section

variable {pairs : List (Expr × Expr)} (hdict : s.resolve "dict" = some (.callable (.function .dict)))

include hdict

theorem eval_dictCall : ev.eval s (dictCall pairs) = ev.evalPairs s pairs >>= fun given =>
    s.settle <$> describe (.functionCall "dict") (liftFault (BuiltinFunction.mapping (alternating given))) := by
  have hname : ev.eval s (.name "dict") = .ok (.callable (.function .dict)) := by
    rw [eval, nameValue, hdict]
  rw [dictCall, eval, hname, ok_bind, evalAll_alternating]
  cases ev.evalPairs s pairs <;> rfl

variable {given : List (Value × Value)} (hne : pairs ≠ []) (h : ev.evalPairs s pairs = .ok given)

include hne h

theorem eval_dictCall_of_evalPairs : ev.eval s (dictCall pairs) =
    s.settle <$> describe (.functionCall "dict")
      (liftFault (Value.dict <$> BuiltinFunction.addAlternating [] (alternating given))) := by
  have hgiven : given ≠ [] := by
    rw [← List.length_pos_iff, length_evalPairs h]
    exact List.length_pos_iff.2 hne
  rw [eval_dictCall hdict, h, ok_bind, BuiltinFunction.mapping_alternating hgiven]

theorem eval_dictCall_of_keysFit (hfit : KeysFit given) :
    ev.eval s (dictCall pairs) = .ok (.dict (entriesOf given)) := by
  rw [eval_dictCall_of_evalPairs hdict hne h, BuiltinFunction.addAlternating_of_keysFit hfit]
  rfl

theorem eval_dictCall_of_misfit {key : Value} {f : Fault} (hmisfit : FirstMisfit given key f) :
    ev.eval s (dictCall pairs) = .error (.evaluation (.functionCall "dict" f)) := by
  rw [eval_dictCall_of_evalPairs hdict hne h, BuiltinFunction.addAlternating_of_misfit hmisfit]
  rfl

end

/-- Where `dict` means the function of this name, its call with keys and values in turns has a value exactly if the mapping
expression of these keys and values has, and then both have the same one: the mapping of the entries that are given, each
key as it is spelled first, in the place where it is, with the value that is given last for it. Where all keys and values
have values and some key is none, both fail for the first one that is none: the call with an error of evaluation, and the
mapping expression with one, too, unless the key has a part that is not written, which makes it fail with the fault of
showing the key. -/
theorem eval_dictCall_iff (ev : Evaluator) (s : Scope) (pairs : List (Expr × Expr)) (hne : pairs ≠ [])
    (hdict : s.resolve "dict" = some (.callable (.function .dict))) :
    (∀ w, ev.eval s (dictCall pairs) = .ok w ↔ ev.eval s (.dict pairs) = .ok w) ∧
    (∀ w, ev.eval s (.dict pairs) = .ok w →
      ∃ given, ev.evalPairs s pairs = .ok given ∧ KeysFit given ∧ w = .dict (entriesOf given)) ∧
    ∀ given, ev.evalPairs s pairs = .ok given →
      (KeysFit given → ev.eval s (dictCall pairs) = .ok (.dict (entriesOf given)) ∧
        ev.eval s (.dict pairs) = .ok (.dict (entriesOf given))) ∧
      ∀ key f, FirstMisfit given key f →
        ev.eval s (dictCall pairs) = .error (.evaluation (.functionCall "dict" f)) ∧
        (¬ key.Unwritten → ∃ shown, key.quotedForm = .ok shown ∧
          ev.eval s (.dict pairs) = .error (.evaluation (.dictKey shown f))) ∧
        (key.Unwritten → ev.eval s (.dict pairs) = .error (.fault (.value .digitsWritten))) := by
  have hvalue : ∀ w, ev.eval s (.dict pairs) = .ok w →
      ∃ given, ev.evalPairs s pairs = .ok given ∧ KeysFit given ∧ w = .dict (entriesOf given) := by
    intro w hw
    have hw' := hw
    rw [eval] at hw'
    obtain ⟨entries, hentries, -⟩ := bind_eq_ok.1 hw'
    obtain ⟨given, hgiven⟩ := evalPairs_of_evalEntries hentries
    rcases keysFit_or_misfit given with hfit | ⟨key, f, hmisfit⟩
    · refine ⟨given, hgiven, hfit, ?_⟩
      rw [eval_dict_of_keysFit hgiven hfit] at hw
      exact (Except.ok.inj hw).symm
    · rw [eval_dict_of_misfit hgiven hmisfit] at hw
      exact absurd hw shown_ne_ok
  refine ⟨fun w => ⟨fun hw => ?_, fun hw => ?_⟩, hvalue, fun given hgiven => ⟨fun hfit =>
    ⟨eval_dictCall_of_keysFit hdict hne hgiven hfit, eval_dict_of_keysFit hgiven hfit⟩, fun key f hmisfit =>
      ⟨eval_dictCall_of_misfit hdict hne hgiven hmisfit, fun hwritten => ?_, fun hunwritten => ?_⟩⟩⟩
  · have hw' := hw
    rw [eval_dictCall hdict] at hw'
    obtain ⟨given, hgiven, -⟩ := bind_eq_ok.1 hw'
    rcases keysFit_or_misfit given with hfit | ⟨key, f, hmisfit⟩
    · rwa [eval_dictCall_of_keysFit hdict hne hgiven hfit, ← eval_dict_of_keysFit hgiven hfit] at hw
    · rw [eval_dictCall_of_misfit hdict hne hgiven hmisfit] at hw
      cases hw
  · obtain ⟨given, hgiven, hfit, rfl⟩ := hvalue w hw
    exact eval_dictCall_of_keysFit hdict hne hgiven hfit
  · rw [eval_dict_of_misfit hgiven hmisfit]
    rw [← Value.fails_quotedForm] at hwritten
    cases hq : key.quotedForm with
    | ok shown => exact ⟨shown, rfl, rfl⟩
    | error f => exact absurd ⟨f, hq⟩ hwritten
  · rw [eval_dict_of_misfit hgiven hmisfit]
    obtain ⟨f', hf'⟩ := (Value.fails_quotedForm key).2 hunwritten
    rw [hf', Value.quotedForm_eq_error hf']
    rfl

/-- Keys that are equal across the types of numbers, and a key that is none. -/
theorem eval_dictCall_iff_numbers : ∃ (s : Scope) (numbers misfit : List (Expr × Expr)),
    s.resolve "dict" = some (.callable (.function .dict)) ∧
    Expr.read "dict(1, 'a', 2, 'b', true, 'c', 1.0, 'd')" = .ok (dictCall numbers) ∧
    Expr.read "\x7b1: 'a', 2: 'b', true: 'c', 1.0: 'd'\x7d" = .ok (.dict numbers) ∧
    (∀ policy, (⟨Host.empty, policy⟩ : Evaluator).eval s (dictCall numbers) =
      .ok (.dict [(.int 1, .str "d"), (.int 2, .str "b")])) ∧
    Expr.read "\x7b[1]: 2\x7d" = .ok (.dict misfit) ∧
    (∀ policy, (⟨Host.empty, policy⟩ : Evaluator).eval s (.dict misfit) =
      .error (.evaluation (.dictKey "[1]" (.type (.unhashable "list"))))) := by
  let s : Scope := { bindings := builtinFunctions }
  let numbers : List (Expr × Expr) := [(.literal (.int 1), .literal (.str "a")), (.literal (.int 2), .literal (.str "b")),
    (.literal (.bool true), .literal (.str "c")), (.literal (.float 1.0), .literal (.str "d"))]
  let misfit : List (Expr × Expr) := [(.list [.literal (.int 1)], .literal (.int 2))]
  have hdict : s.resolve "dict" = some (.callable (.function .dict)) := rfl
  refine ⟨s, numbers, misfit, hdict, by with_unfolding_all rfl, by with_unfolding_all rfl, fun policy => ?_,
    by with_unfolding_all rfl, fun policy => ?_⟩
  · have hgiven : (⟨Host.empty, policy⟩ : Evaluator).evalPairs s numbers = .ok [(.int 1, .str "a"), (.int 2, .str "b"),
        (.bool true, .str "c"), (.float 1.0, .str "d")] := rfl
    have hfit : KeysFit [(.int 1, .str "a"), (.int 2, .str "b"), (.bool true, .str "c"), (.float 1.0, .str "d")] := by
      simp only [KeysFit, List.forall_mem_cons]
      exact ⟨rfl, rfl, rfl, rfl, List.forall_mem_nil _⟩
    rw [(((eval_dictCall_iff ⟨Host.empty, policy⟩ s numbers nofun hdict).2.2 _ hgiven).1 hfit).1, ← insertEntries_nil]
    with_unfolding_all rfl
  · have hgiven : (⟨Host.empty, policy⟩ : Evaluator).evalPairs s misfit = .ok [(.list [.int 1], .int 2)] := rfl
    have hshown : (Value.list [.int 1]).quotedForm = .ok "[1]" := by with_unfolding_all rfl
    have hwritten : ¬ (Value.list [.int 1]).Unwritten := by
      rw [← Value.fails_quotedForm, hshown]
      exact not_fails_ok _
    obtain ⟨shown, hshown', hfails⟩ := (((eval_dictCall_iff ⟨Host.empty, policy⟩ s misfit nofun hdict).2.2 _ hgiven).2
      (.list [.int 1]) (.type (.unhashable "list")) ⟨rfl, [], _, [], rfl, List.forall_mem_nil _⟩).2.1 hwritten
    cases hshown.symm.trans hshown'
    exact hfails

/-- A key that is none and is not shown: the mapping expression ends with a fault, although its keys and values all have
values. Each factor of the key is written, and the product is not. -/
theorem eval_dict_unwritten : ∃ (s : Scope) (pairs : List (Expr × Expr)) (given : List (Value × Value)),
    s.resolve "dict" = some (.callable (.function .dict)) ∧ Expr.read "\x7b[n * n]: 1\x7d" = .ok (.dict pairs) ∧
    (⟨Host.empty, .strict⟩ : Evaluator).evalPairs s pairs = .ok given ∧
    (⟨Host.empty, .strict⟩ : Evaluator).eval s (.dict pairs) = .error (.fault (.value .digitsWritten)) := by
  let n : Int := Nat.pow 10 2200
  have hn : (Value.list [.int (n * n)]).Unwritten :=
    ⟨n * n, .listItem (List.mem_singleton_self _) (.self _), by decide +kernel⟩
  let s : Scope := { bindings := ("n", .int n) :: builtinFunctions }
  let pairs : List (Expr × Expr) := [(.list [.binary .mul (.name "n") (.name "n")], .literal (.int 1))]
  have hgiven : (⟨Host.empty, .strict⟩ : Evaluator).evalPairs s pairs = .ok [(.list [.int (n * n)], .int 1)] := rfl
  refine ⟨s, pairs, _, rfl, by with_unfolding_all rfl, hgiven, ?_⟩
  have hmisfit : FirstMisfit [(.list [.int (n * n)], .int 1)] (.list [.int (n * n)]) (.type (.unhashable "list")) :=
    ⟨rfl, [], _, [], rfl, List.forall_mem_nil _⟩
  obtain ⟨f, hf⟩ := (Value.fails_quotedForm _).2 hn
  rw [eval_dict_of_misfit hgiven hmisfit, hf, Value.quotedForm_eq_error hf]
  rfl

end Evaluator

end TemplateEngine

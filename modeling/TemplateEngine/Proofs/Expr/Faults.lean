/-
Which faults evaluation lets through. Errors of evaluation describe most faults of the operations of an expression, but
not those of operands beyond the range of a result, of byte strings and foreign objects that are asked for a value, and
of the integers that have too many digits for the message. An expression ends with a fault exactly if one of these
operations is performed in its evaluation.
-/
import TemplateEngine.Proofs.Expr.Failures
import TemplateEngine.Proofs.Value.Operators

namespace TemplateEngine

/-- A computation ends with a fault, and not with an error that is meant for a reader. -/
def Faults {α : Type} (r : Except Failure α) : Prop :=
  ∃ f, r = .error (.fault f)

section

variable {α β : Type}

@[simp] theorem not_faults_ok (a : α) : ¬ Faults (.ok a) :=
  nofun

@[simp] theorem not_faults_pure (a : α) : ¬ Faults (pure a) :=
  nofun

@[simp] theorem not_faults_evaluation (e : EvalError) : ¬ Faults (.error (.evaluation e) : Except Failure α) :=
  nofun

@[simp] theorem faults_fault (f : Fault) : Faults (.error (.fault f) : Except Failure α) :=
  ⟨f, rfl⟩

theorem faults_bind {r : Except Failure α} {k : α → Except Failure β} :
    Faults (r >>= k) ↔ Faults r ∨ ∃ a, r = .ok a ∧ Faults (k a) := by
  cases r <;> simp [Faults]

theorem faults_map {r : Except Failure α} {g : α → β} : Faults (g <$> r) ↔ Faults r := by
  simp [Faults, map_eq_error]

theorem faults_liftFault {r : Except Fault α} : Faults (liftFault r) ↔ Fails r := by
  cases r <;> simp [liftFault]

/-- A failure is meant for a reader unless it is a fault. -/
theorem not_faults_iff {r : Except Failure α} :
    ¬ Faults r ↔ ∀ failure, r = .error failure → failure.forReader = true := by
  constructor
  · intro h failure hr
    cases failure with
    | fault f => exact absurd ⟨f, hr⟩ h
    | template | expression | evaluation | load => rfl
  · rintro h ⟨f, hr⟩
    cases h _ hr

end

namespace Evaluator

variable {ev : Evaluator} {s : Scope}

/-! ## Operations -/

/-- A message that shows something is a fault iff that is not shown. -/
theorem faults_shown {α : Type} {r : Except Fault String} {k : String → Except Failure α}
    (hk : ∀ shown, ¬ Faults (k shown)) : Faults (liftFault r >>= k) ↔ Fails r := by
  rw [faults_bind, faults_liftFault]
  exact or_iff_left fun ⟨shown, _, h⟩ => hk shown h

theorem fails_shown (e : Expr) : Fails e.shown ↔ e.isShown = false := by
  unfold Expr.shown
  split <;> simp_all

theorem not_faults_missing (e : EvalError) : ¬ Faults (ev.missing e) := by
  unfold missing
  split <;> simp

theorem not_faults_nameValue (n : String) : ¬ Faults (ev.nameValue s n) := by
  unfold nameValue
  split
  · exact not_faults_ok _
  · exact not_faults_missing _

theorem not_faults_memberOf (target : Value) (n : String) : ¬ Faults (ev.memberOf target n) := by
  unfold memberOf
  split
  · exact not_faults_ok _
  · split
    · exact not_faults_ok _
    · exact not_faults_missing _
    · exact not_faults_evaluation _

theorem faults_itemOf (target key : Value) :
    Faults (ev.itemOf target key) ↔
      ev.passesNone target = false ∧ (∀ v, target.readItem key ≠ .found v) ∧ key.Unwritten := by
  unfold itemOf
  cases ev.passesNone target with
  | true => simp
  | false =>
    rw [if_neg Bool.false_ne_true, and_iff_right rfl]
    cases target.readItem key with
    | found v => simp
    | missing =>
      cases ev.undefined with
      | strict =>
        dsimp only
        rw [faults_shown fun _ => not_faults_evaluation _, Value.fails_quotedForm]
        simp
      | lenient =>
        dsimp only
        rw [faults_shown fun _ => not_faults_ok _, Value.fails_quotedForm]
        simp
    | failed f =>
      dsimp only
      rw [faults_shown, Value.fails_quotedForm]
      · simp
      · intro shown
        split <;> exact not_faults_evaluation _

theorem not_faults_applyUnary (op : UnaryOp) (v : Value) : ¬ Faults (applyUnary op v) := by
  unfold applyUnary
  split <;> simp

/-- The faults of a call are described. -/
theorem not_faults_describe (error : Fault → EvalError) (r : Except Failure Value) : ¬ Faults (describe error r) := by
  unfold describe
  split
  · exact not_faults_evaluation _
  · rename_i hno
    rintro ⟨f, hf⟩
    exact hno f hf

/-- What an operator does with the value of its operands: it describes the faults that it catches. -/
def checked (e : Expr) (r : Except Fault Value) : Except Failure Value :=
  match r with
  | .ok v => .ok v
  | .error (.overflow p) => .error (.fault (.overflow p))
  | .error (.foreign kind text) => .error (.fault (.foreign kind text))
  | .error f => do
    let shown ← liftFault e.shown
    .error (.evaluation (.operation shown f))

theorem applyBinary_eq {op : BinaryOp} (hop : op ≠ .concat) (memory : Nat) (e : Expr) (l r : Value) :
    applyBinary memory e op l r = checked e (op.result memory l r) := by
  cases op <;> first | rfl | exact absurd rfl hop

theorem faults_checked (e : Expr) (r : Except Fault Value) :
    Faults (checked e r) ↔ Escapes r ∨ Fails r ∧ e.isShown = false := by
  unfold checked
  split
  · simp
  · exact iff_of_true (faults_fault _) (.inl ⟨_, rfl, rfl⟩)
  · exact iff_of_true (faults_fault _) (.inl ⟨_, rfl, rfl⟩)
  · rename_i f hoverflow hforeign
    have hcaught : f.isUncaught = false := by
      cases f with
      | overflow p => exact absurd rfl (hoverflow p)
      | foreign kind text => exact absurd rfl (hforeign kind text)
      | type | value | zeroDivision => rfl
    rw [faults_shown fun _ => not_faults_evaluation _, fails_shown]
    simp [hcaught]

theorem faults_applyBinary (memory : Nat) (e : Expr) (op : BinaryOp) (l r : Value) :
    Faults (applyBinary memory e op l r) ↔
      Overflows memory op l r ∨ Fails (op.result memory l r) ∧ (op = .concat ∨ e.isShown = false) := by
  rw [← escapes_result]
  by_cases hop : op = .concat
  · subst hop
    have hnone : ¬ Escapes (BinaryOp.concat.result memory l r) := not_escapes_of_written fun _ => concat_eq_error
    show Faults (liftFault (BinaryOp.concat.result memory l r)) ↔ _
    rw [faults_liftFault]
    simp [hnone]
  · rw [applyBinary_eq hop, faults_checked]
    simp [hop]

theorem slips_compareValues (op : CompareOp) (l r : Value) :
    Value.Slips (compareValues op l r) ↔ (op = .mem ∨ op = .notMem) ∧ r.Refuses l := by
  have hordered (order : OrderOp) : ¬ Value.Slips (l.ordered order r) := by
    rintro ⟨f, hf, hp⟩
    obtain ⟨p, rfl⟩ := Value.ordered_eq_error l r hf
    exact hp p rfl
  rw [← Value.slips_contains]
  cases op with
  | eq => exact iff_of_false nofun (by simp)
  | ne => exact iff_of_false nofun (by simp)
  | lt => exact iff_of_false (hordered .lt) (by simp)
  | le => exact iff_of_false (hordered .le) (by simp)
  | gt => exact iff_of_false (hordered .gt) (by simp)
  | ge => exact iff_of_false (hordered .ge) (by simp)
  | mem => simp [compareValues]
  | notMem => simp [compareValues, Value.Slips, map_eq_error]

theorem faults_applyCompare (e : Expr) (op : CompareOp) (l r : Value) :
    Faults (applyCompare e op l r) ↔
      (op = .mem ∨ op = .notMem) ∧ r.Refuses l ∨ Fails (compareValues op l r) ∧ e.isShown = false := by
  rw [← slips_compareValues, applyCompare]
  split
  · rename_i b hb
    simp [hb, Value.Slips]
  · rename_i p hp
    rw [faults_shown fun _ => not_faults_evaluation _, fails_shown, hp]
    simp [Value.not_slips_type]
  · rename_i f hno hf
    exact iff_of_true (faults_fault f) (.inl ⟨f, hf, hno⟩)

/-! ## Parts -/

/-- An expression of a row that is evaluated, with the scope in which it is. -/
inductive InRow (ev : Evaluator) : Scope → List Expr → Scope → Expr → Prop
  | head {s : Scope} {e : Expr} {es : List Expr} : InRow ev s (e :: es) s e
  | tail {s s' : Scope} {e e' : Expr} {es : List Expr} {v : Value} (hv : ev.eval s e = .ok v)
      (h : InRow ev (s.holding v) es s' e') : InRow ev s (e :: es) s' e'

/-- A key or value of a mapping that is evaluated, with the scope in which it is. -/
inductive InEntries (ev : Evaluator) : Scope → List (Expr × Expr) → Scope → Expr → Prop
  | key {s : Scope} {key value : Expr} {rest : List (Expr × Expr)} : InEntries ev s ((key, value) :: rest) s key
  | value {s : Scope} {key value : Expr} {rest : List (Expr × Expr)} {k : Value} (hk : ev.eval s key = .ok k) :
      InEntries ev s ((key, value) :: rest) (s.holding k) value
  | rest {s s' : Scope} {key value e' : Expr} {rest : List (Expr × Expr)} {k v : Value} (hk : ev.eval s key = .ok k)
      (hv : ev.eval (s.holding k) value = .ok v) (hkey : k.checkKey = .ok ())
      (h : InEntries ev ((s.holding k).holding v) rest s' e') : InEntries ev s ((key, value) :: rest) s' e'

/-- The value of a key of a mapping expression is no key. -/
inductive RefusesKey (ev : Evaluator) : Scope → List (Expr × Expr) → Value → Prop
  | here {s : Scope} {key value : Expr} {rest : List (Expr × Expr)} {k v : Value} (hk : ev.eval s key = .ok k)
      (hv : ev.eval (s.holding k) value = .ok v) (hkey : Fails k.checkKey) : RefusesKey ev s ((key, value) :: rest) k
  | rest {s : Scope} {key value : Expr} {rest : List (Expr × Expr)} {k v k' : Value} (hk : ev.eval s key = .ok k)
      (hv : ev.eval (s.holding k) value = .ok v) (hkey : k.checkKey = .ok ())
      (h : RefusesKey ev ((s.holding k).holding v) rest k') : RefusesKey ev s ((key, value) :: rest) k'

/-- An expression that is evaluated as a part of another one, with the scope in which it is. -/
inductive Part (ev : Evaluator) (s : Scope) : Expr → Scope → Expr → Prop
  | memberTarget {target : Expr} {n : String} : Part ev s (.member target n) s target
  | itemTarget {target key : Expr} : Part ev s (.item target key) s target
  | itemKey {target key : Expr} {t : Value} (ht : ev.eval s target = .ok t) :
      Part ev s (.item target key) (s.holding t) key
  | function {function : Expr} {args : List Expr} : Part ev s (.call function args) s function
  | arg {function e' : Expr} {args : List Expr} {c : Callable} {s' : Scope}
      (hf : ev.eval s function = .ok (.callable c)) (h : ev.InRow s args s' e') : Part ev s (.call function args) s' e'
  | unary {op : UnaryOp} {operand : Expr} : Part ev s (.unary op operand) s operand
  | binaryLeft {op : BinaryOp} {left right : Expr} : Part ev s (.binary op left right) s left
  | binaryRight {op : BinaryOp} {left right : Expr} {l : Value} (hl : ev.eval s left = .ok l) :
      Part ev s (.binary op left right) (s.holding l) right
  | logicalLeft {op : LogicalOp} {left right : Expr} : Part ev s (.logical op left right) s left
  | andRight {left right : Expr} {l : Value} (hl : ev.eval s left = .ok l) (ht : l.truthy = true) :
      Part ev s (.logical .and left right) s right
  | orRight {left right : Expr} {l : Value} (hl : ev.eval s left = .ok l) (ht : l.truthy = false) :
      Part ev s (.logical .or left right) s right
  | not {operand : Expr} : Part ev s (.not operand) s operand
  | compareLeft {op : CompareOp} {left right : Expr} : Part ev s (.compare op left right) s left
  | compareRight {op : CompareOp} {left right : Expr} {l : Value} (hl : ev.eval s left = .ok l) :
      Part ev s (.compare op left right) (s.holding l) right
  | condition {body c orElse : Expr} : Part ev s (.conditional body c orElse) s c
  | body {body c orElse : Expr} {v : Value} (hc : ev.eval s c = .ok v) (ht : v.truthy = true) :
      Part ev s (.conditional body c orElse) s body
  | orElse {body c orElse : Expr} {v : Value} (hc : ev.eval s c = .ok v) (ht : v.truthy = false) :
      Part ev s (.conditional body c orElse) s orElse
  | listItem {items : List Expr} {s' : Scope} {e' : Expr} (h : ev.InRow s items s' e') : Part ev s (.list items) s' e'
  | entry {entries : List (Expr × Expr)} {s' : Scope} {e' : Expr} (h : ev.InEntries s entries s' e') :
      Part ev s (.dict entries) s' e'
  | filtered {value : Expr} {n : String} {args : List Expr} {f : Value} (hf : s.filter? n = some f) :
      Part ev s (.filter value n args) s value
  | filterArg {value e' : Expr} {n : String} {args : List Expr} {f v : Value} {s' : Scope} (hf : s.filter? n = some f)
      (hv : ev.eval s value = .ok v) (h : ev.InRow (s.holding v) args s' e') : Part ev s (.filter value n args) s' e'

/-- The operation of an expression whose operands have values ends with a fault. -/
inductive LetsThrough (ev : Evaluator) (s : Scope) : Expr → Prop
  /-- An item that is not found, at a key that is not shown. -/
  | item {target key : Expr} {t k : Value} (ht : ev.eval s target = .ok t) (hk : ev.eval (s.holding t) key = .ok k)
      (hnone : ev.passesNone t = false) (hfound : ∀ v, t.readItem k ≠ .found v) (hk' : k.Unwritten) :
      LetsThrough ev s (.item target key)
  /-- A key of a mapping that is none and is not shown. -/
  | key {entries : List (Expr × Expr)} {k : Value} (h : ev.RefusesKey s entries k) (hk : k.Unwritten) :
      LetsThrough ev s (.dict entries)
  /-- A function whose expression is not shown, called or not. -/
  | uncalled {function : Expr} {args : List Expr} {f : Value} (hf : ev.eval s function = .ok f)
      (hc : ∀ c, f ≠ .callable c) (hs : function.isShown = false) : LetsThrough ev s (.call function args)
  | called {function : Expr} {args : List Expr} {c : Callable} {vs : List Value}
      (hf : ev.eval s function = .ok (.callable c)) (hargs : ev.evalAll s args = .ok vs) (hs : function.isShown = false) :
      LetsThrough ev s (.call function args)
  /-- Operands beyond the range of the result. -/
  | overflow {op : BinaryOp} {left right : Expr} {l r : Value} (hl : ev.eval s left = .ok l)
      (hr : ev.eval (s.holding l) right = .ok r) (h : Overflows ev.host.memory op l r) : LetsThrough ev s (.binary op left right)
  /-- An output text that is not written. -/
  | text {left right : Expr} {l r : Value} (hl : ev.eval s left = .ok l) (hr : ev.eval (s.holding l) right = .ok r)
      (h : l.Unwritten ∨ r.Unwritten) : LetsThrough ev s (.binary .concat left right)
  /-- An operation without a value that is not shown. -/
  | operation {op : BinaryOp} {left right : Expr} {l r : Value} (hl : ev.eval s left = .ok l)
      (hr : ev.eval (s.holding l) right = .ok r) (h : Fails (op.result ev.host.memory l r))
      (hs : (Expr.binary op left right).isShown = false) : LetsThrough ev s (.binary op left right)
  /-- A container that refuses the value that is looked for. -/
  | membership {op : CompareOp} {left right : Expr} {l r : Value} (hl : ev.eval s left = .ok l)
      (hr : ev.eval (s.holding l) right = .ok r) (hop : op = .mem ∨ op = .notMem) (h : r.Refuses l) :
      LetsThrough ev s (.compare op left right)
  /-- A comparison without a value that is not shown. -/
  | comparison {op : CompareOp} {left right : Expr} {l r : Value} (hl : ev.eval s left = .ok l)
      (hr : ev.eval (s.holding l) right = .ok r) (h : Fails (compareValues op l r))
      (hs : (Expr.compare op left right).isShown = false) : LetsThrough ev s (.compare op left right)

/-- An expression that is evaluated in the course of the evaluation of another one, at whatever depth. -/
inductive Reaches (ev : Evaluator) : Scope → Expr → Scope → Expr → Prop
  | self (s : Scope) (e : Expr) : Reaches ev s e s e
  | part {s s' s'' : Scope} {e e' e'' : Expr} (hp : ev.Part s e s' e') (h : Reaches ev s' e' s'' e'') :
      Reaches ev s e s'' e''

/-! ## The failure of a part -/

section

variable {failure : Failure} {s' : Scope} {e' : Expr}

theorem InRow.eq_error {es : List Expr} (h : ev.InRow s es s' e') (he : ev.eval s' e' = .error failure) :
    ev.evalAll s es = .error failure := by
  induction h with
  | head =>
    rw [evalAll, he]
    rfl
  | tail hv _ ih =>
    rw [evalAll, hv, ok_bind, ih he]
    rfl

theorem InEntries.eq_error {entries : List (Expr × Expr)} (h : ev.InEntries s entries s' e')
    (he : ev.eval s' e' = .error failure) (done : List (Value × Value)) :
    ev.evalEntries s done entries = .error failure := by
  induction h generalizing done with
  | key =>
    rw [evalEntries, he]
    rfl
  | value hk =>
    rw [evalEntries, hk, ok_bind, he]
    rfl
  | rest hk hv hkey _ ih =>
    rw [evalEntries, hk, ok_bind, hv, ok_bind, hkey]
    exact ih he _

/-- The failure of a part is that of the whole expression. -/
theorem Part.eq_error {e : Expr} (h : ev.Part s e s' e') (he : ev.eval s' e' = .error failure) :
    ev.eval s e = .error failure := by
  cases h with
  | memberTarget => rw [eval, he]; rfl
  | itemTarget => rw [eval, he]; rfl
  | itemKey ht => rw [eval, ht, ok_bind, he]; rfl
  | function => rw [eval, he]; rfl
  | arg hf h =>
    rw [eval, hf, ok_bind]
    dsimp only
    rw [h.eq_error he]
    rfl
  | unary => rw [eval, he]; rfl
  | binaryLeft => rw [eval, he]; rfl
  | binaryRight hl => rw [eval, hl, ok_bind, he]; rfl
  | logicalLeft => rw [eval, he]; rfl
  | andRight hl ht =>
    rw [eval, hl, ok_bind]
    dsimp only
    rw [ht, if_pos rfl, he]
  | orRight hl ht =>
    rw [eval, hl, ok_bind]
    dsimp only
    rw [ht, if_neg Bool.false_ne_true, he]
  | not => rw [eval, he]; rfl
  | compareLeft => rw [eval, he]; rfl
  | compareRight hl => rw [eval, hl, ok_bind, he]; rfl
  | condition => rw [eval, he]; rfl
  | body hc ht => rw [eval, hc, ok_bind, ht, if_pos rfl, he]
  | orElse hc ht => rw [eval, hc, ok_bind, ht, if_neg Bool.false_ne_true, he]
  | listItem h => rw [eval, h.eq_error he]; rfl
  | entry h => rw [eval, h.eq_error he]; rfl
  | filtered hf => rw [eval, hf]; dsimp only; rw [he]; rfl
  | filterArg hf hv h =>
    rw [eval, hf]
    dsimp only
    rw [hv, ok_bind, h.eq_error he]
    rfl

end

/-! ## The failure of an expression -/

theorem InRow.sizeOf_lt {es : List Expr} {s' : Scope} {e' : Expr} (h : ev.InRow s es s' e') : sizeOf e' < sizeOf es := by
  induction h with
  | head => simp; omega
  | tail _ _ ih => simp; omega

theorem InEntries.sizeOf_lt {entries : List (Expr × Expr)} {s' : Scope} {e' : Expr} (h : ev.InEntries s entries s' e') :
    sizeOf e' < sizeOf entries := by
  induction h with
  | key => simp; omega
  | value => simp; omega
  | rest _ _ _ _ ih => simp; omega

theorem Part.sizeOf_lt {e e' : Expr} {s' : Scope} (h : ev.Part s e s' e') : sizeOf e' < sizeOf e := by
  cases h with
  | arg _ h => have := h.sizeOf_lt; simp; omega
  | listItem h => have := h.sizeOf_lt; simp; omega
  | entry h => have := h.sizeOf_lt; simp; omega
  | filterArg _ _ h => have := h.sizeOf_lt; simp; omega
  | _ => simp <;> omega

/-- A row fails with the fault of one of its expressions. -/
theorem exists_inRow {es : List Expr} (h : Faults (ev.evalAll s es)) :
    ∃ s' e', ev.InRow s es s' e' ∧ Faults (ev.eval s' e') := by
  induction es generalizing s with
  | nil => exact absurd h (not_faults_ok _)
  | cons e es ih =>
    rw [evalAll] at h
    rcases faults_bind.1 h with h | ⟨v, hv, h⟩
    · exact ⟨s, e, .head, h⟩
    · rcases faults_bind.1 h with h | ⟨vs, -, h⟩
      · obtain ⟨s', e', hin, hf⟩ := ih h
        exact ⟨s', e', .tail hv hin, hf⟩
      · exact absurd h (not_faults_pure _)

/-- Entries fail with the fault of one of their expressions, or for a key that is not shown. -/
theorem exists_inEntries {entries : List (Expr × Expr)} {done : List (Value × Value)}
    (h : Faults (ev.evalEntries s done entries)) :
    (∃ k, ev.RefusesKey s entries k ∧ k.Unwritten) ∨ ∃ s' e', ev.InEntries s entries s' e' ∧ Faults (ev.eval s' e') := by
  induction entries generalizing s done with
  | nil => exact absurd h (not_faults_ok _)
  | cons entry rest ih =>
    obtain ⟨key, value⟩ := entry
    rw [evalEntries] at h
    rcases faults_bind.1 h with h | ⟨k, hk, h⟩
    · exact .inr ⟨s, key, .key, h⟩
    · rcases faults_bind.1 h with h | ⟨v, hv, h⟩
      · exact .inr ⟨_, value, .value hk, h⟩
      · split at h
        · rename_i hkey
          rcases ih h with ⟨k', hk', hw⟩ | ⟨s', e', hin, hf⟩
          · exact .inl ⟨k', .rest hk hv hkey hk', hw⟩
          · exact .inr ⟨s', e', .rest hk hv hkey hin, hf⟩
        · rename_i f hkey
          rw [faults_shown fun _ => not_faults_evaluation _, Value.fails_quotedForm] at h
          exact .inl ⟨k, .here hk hv ⟨f, hkey⟩, h⟩

theorem RefusesKey.faults {entries : List (Expr × Expr)} {k : Value} (h : ev.RefusesKey s entries k) (hk : k.Unwritten)
    (done : List (Value × Value)) : Faults (ev.evalEntries s done entries) := by
  induction h generalizing done with
  | here hv hw hkey =>
    obtain ⟨f, hkey⟩ := hkey
    rw [evalEntries, hv, ok_bind, hw, ok_bind, hkey]
    dsimp only
    rw [faults_shown fun _ => not_faults_evaluation _, Value.fails_quotedForm]
    exact hk
  | rest hv hw hkey _ ih =>
    rw [evalEntries, hv, ok_bind, hw, ok_bind, hkey]
    exact ih hk _

theorem LetsThrough.faults {e : Expr} (h : ev.LetsThrough s e) : Faults (ev.eval s e) := by
  cases h with
  | item ht hk hnone hfound hw =>
    rw [eval, ht, ok_bind, hk, ok_bind, faults_itemOf]
    exact ⟨hnone, hfound, hw⟩
  | key h hk =>
    rw [eval, faults_bind]
    exact .inl (h.faults hk [])
  | uncalled hf hc hs =>
    rw [eval, hf, ok_bind]
    split
    · exact absurd rfl (hc _)
    · rw [faults_shown fun _ => not_faults_evaluation _, fails_shown]
      exact hs
  | called hf hargs hs =>
    rw [eval, hf, ok_bind]
    dsimp only
    rw [hargs, ok_bind, faults_bind, faults_liftFault, fails_shown]
    exact .inl hs
  | overflow hl hr h =>
    rw [eval, hl, ok_bind, hr, ok_bind, faults_map, faults_applyBinary]
    exact .inl h
  | text hl hr h =>
    rw [eval, hl, ok_bind, hr, ok_bind, faults_map, faults_applyBinary, fails_concat]
    exact .inr ⟨h, .inl rfl⟩
  | operation hl hr h hs =>
    rw [eval, hl, ok_bind, hr, ok_bind, faults_map, faults_applyBinary]
    exact .inr ⟨h, .inr hs⟩
  | membership hl hr hop h =>
    rw [eval, hl, ok_bind, hr, ok_bind, faults_applyCompare]
    exact .inl ⟨hop, h⟩
  | comparison hl hr h hs =>
    rw [eval, hl, ok_bind, hr, ok_bind, faults_applyCompare]
    exact .inr ⟨h, hs⟩

/-- Of two operands the right one is evaluated behind the left one, and the operation behind both. -/
theorem faults_operands {α : Type} {left right : Expr} {k : Value → Value → Except Failure α}
    (h : Faults (ev.eval s left >>= fun l => ev.eval (s.holding l) right >>= k l)) :
    Faults (ev.eval s left) ∨ ∃ l, ev.eval s left = .ok l ∧
      (Faults (ev.eval (s.holding l) right) ∨ ∃ r, ev.eval (s.holding l) right = .ok r ∧ Faults (k l r)) :=
  (faults_bind.1 h).imp_right fun ⟨l, hl, h⟩ => ⟨l, hl, faults_bind.1 h⟩

/-- An expression ends with the fault of its own operation, or with that of a part. -/
theorem letsThrough_or_part {e : Expr} (h : Faults (ev.eval s e)) :
    ev.LetsThrough s e ∨ ∃ s' e', ev.Part s e s' e' ∧ Faults (ev.eval s' e') := by
  cases e with
  | literal l => exact absurd h (not_faults_ok _)
  | name n =>
    rw [eval] at h
    exact absurd h (not_faults_nameValue n)
  | member target n =>
    rw [eval] at h
    rcases faults_bind.1 h with h | ⟨t, -, h⟩
    · exact .inr ⟨_, _, .memberTarget, h⟩
    · exact absurd h (not_faults_memberOf t n)
  | item target key =>
    rw [eval] at h
    rcases faults_operands h with h | ⟨t, ht, h | ⟨k, hk, h⟩⟩
    · exact .inr ⟨_, _, .itemTarget, h⟩
    · exact .inr ⟨_, _, .itemKey ht, h⟩
    · obtain ⟨hnone, hfound, hw⟩ := (faults_itemOf t k).1 h
      exact .inl (.item ht hk hnone hfound hw)
  | call function args =>
    rw [eval] at h
    rcases faults_bind.1 h with h | ⟨f, hf, h⟩
    · exact .inr ⟨_, _, .function, h⟩
    · split at h
      · rcases faults_bind.1 h with h | ⟨vs, hvs, h⟩
        · obtain ⟨s', e', hin, h⟩ := exists_inRow h
          exact .inr ⟨s', e', .arg hf hin, h⟩
        · rcases faults_bind.1 h with h | ⟨shown, -, h⟩
          · rw [faults_liftFault, fails_shown] at h
            exact .inl (.called hf hvs h)
          · exact absurd (faults_map.1 h) (not_faults_describe _ _)
      · rename_i hc
        rw [faults_shown fun _ => not_faults_evaluation _, fails_shown] at h
        exact .inl (.uncalled hf (fun c hfc => hc c hfc) h)
  | unary op operand =>
    rw [eval] at h
    rcases faults_bind.1 h with h | ⟨v, -, h⟩
    · exact .inr ⟨_, _, .unary, h⟩
    · exact absurd (faults_map.1 h) (not_faults_applyUnary op v)
  | binary op left right =>
    rw [eval] at h
    rcases faults_operands h with h | ⟨l, hl, h | ⟨r, hr, h⟩⟩
    · exact .inr ⟨_, _, .binaryLeft, h⟩
    · exact .inr ⟨_, _, .binaryRight hl, h⟩
    · rw [faults_map, faults_applyBinary] at h
      rcases h with h | ⟨h, rfl | hs⟩
      · exact .inl (.overflow hl hr h)
      · exact .inl (.text hl hr ((fails_concat _ l r).1 h))
      · exact .inl (.operation hl hr h hs)
  | logical op left right =>
    rw [eval] at h
    rcases faults_bind.1 h with h | ⟨l, hl, h⟩
    · exact .inr ⟨_, _, .logicalLeft, h⟩
    · cases op with
      | and =>
        dsimp only at h
        split at h
        · exact .inr ⟨_, _, .andRight hl ‹_›, h⟩
        · exact absurd h (not_faults_pure _)
      | or =>
        dsimp only at h
        split at h
        · exact absurd h (not_faults_pure _)
        · rename_i ht
          exact .inr ⟨_, _, .orRight hl (Bool.eq_false_iff.2 ht), h⟩
  | not operand =>
    rw [eval] at h
    rcases faults_bind.1 h with h | ⟨v, -, h⟩
    · exact .inr ⟨_, _, .not, h⟩
    · exact absurd h (not_faults_pure _)
  | compare op left right =>
    rw [eval] at h
    rcases faults_operands h with h | ⟨l, hl, h | ⟨r, hr, h⟩⟩
    · exact .inr ⟨_, _, .compareLeft, h⟩
    · exact .inr ⟨_, _, .compareRight hl, h⟩
    · rw [faults_applyCompare] at h
      rcases h with ⟨hop, h⟩ | ⟨h, hs⟩
      · exact .inl (.membership hl hr hop h)
      · exact .inl (.comparison hl hr h hs)
  | conditional body c orElse =>
    rw [eval] at h
    rcases faults_bind.1 h with h | ⟨v, hv, h⟩
    · exact .inr ⟨_, _, .condition, h⟩
    · split at h
      · exact .inr ⟨_, _, .body hv ‹_›, h⟩
      · rename_i ht
        exact .inr ⟨_, _, .orElse hv (Bool.eq_false_iff.2 ht), h⟩
  | list items =>
    rw [eval] at h
    rcases faults_bind.1 h with h | ⟨vs, -, h⟩
    · obtain ⟨s', e', hin, h⟩ := exists_inRow h
      exact .inr ⟨s', e', .listItem hin, h⟩
    · exact absurd h (not_faults_pure _)
  | dict entries =>
    rw [eval] at h
    rcases faults_bind.1 h with h | ⟨vs, -, h⟩
    · rcases exists_inEntries h with ⟨k, hk, hw⟩ | ⟨s', e', hin, h⟩
      · exact .inl (.key hk hw)
      · exact .inr ⟨s', e', .entry hin, h⟩
    · exact absurd h (not_faults_pure _)
  | filter value n args =>
    rw [eval] at h
    split at h
    · exact absurd h (not_faults_evaluation _)
    · rename_i f hf
      rcases faults_bind.1 h with h | ⟨v, hv, h⟩
      · exact .inr ⟨_, _, .filtered hf, h⟩
      · rcases faults_bind.1 h with h | ⟨vs, -, h⟩
        · obtain ⟨s', e', hin, h⟩ := exists_inRow h
          exact .inr ⟨s', e', .filterArg hf hv hin, h⟩
        · exact absurd (faults_map.1 h) (not_faults_describe _ _)

/-- An expression ends with a fault iff an expression that its evaluation reaches lets one through. -/
theorem faults_eval {e : Expr} : Faults (ev.eval s e) ↔ ∃ s' e', ev.Reaches s e s' e' ∧ ev.LetsThrough s' e' := by
  constructor
  · intro h
    -- the parts get smaller, so that the fault is traced back to an operation of its own
    induction hn : sizeOf e using Nat.strongRecOn generalizing s e with
    | _ n ih =>
      rcases letsThrough_or_part h with h | ⟨s', e', hpart, h⟩
      · exact ⟨s, e, .self s e, h⟩
      · obtain ⟨s'', e'', hreach, hlets⟩ := ih (sizeOf e') (hn ▸ hpart.sizeOf_lt) h rfl
        exact ⟨s'', e'', .part hpart hreach, hlets⟩
  · rintro ⟨s', e', hreach, hlets⟩
    induction hreach with
    | self s e => exact hlets.faults
    | part hpart _ ih =>
      obtain ⟨f, hf⟩ := ih hlets
      exact ⟨f, hpart.eq_error hf⟩

/-- The failures of an expression are meant for a reader iff no operation that is performed lets a fault through: none
has operands beyond the range of its result, looks for a value in a container that refuses it, joins an output text that
is not written, or has to show an expression or a key with too many digits. -/
theorem eval_forReader_iff (ev : Evaluator) (s : Scope) (e : Expr) :
    (∀ failure, ev.eval s e = .error failure → failure.forReader = true) ↔
      ∀ s' e', ev.Reaches s e s' e' → ¬ ev.LetsThrough s' e' := by
  rw [← not_faults_iff, faults_eval]
  simp only [not_exists, not_and]

/-- An integer beyond the floating point numbers, multiplied by one of them. -/
theorem eval_product_overflow :
    (⟨Host.empty, .strict⟩ : Evaluator).eval { bindings := [("n", .int (Nat.pow 10 309))] }
      (.binary .mul (.name "n") (.literal (.float 1.0))) = .error (.fault (.overflow .float)) := by
  have hbeyond : Number.floatOfInt? (Nat.pow 10 309) = none := by
    rw [Number.floatOfInt?, if_pos (by decide +kernel)]
  have hproduct (memory : Nat) : (Value.int (Nat.pow 10 309)).mul memory (.float 1.0) = .error (.overflow .float) := by
    show Numeric.toValue <$> (Numeric.int (Nat.pow 10 309)).mul (.float 1.0) = _
    rw [Numeric.mul, Numeric.combine, Numeric.toFloat, hbeyond]
    · rfl
    · intro a b _ hb
      cases hb
  have hname : (⟨Host.empty, .strict⟩ : Evaluator).nameValue { bindings := [("n", .int (Nat.pow 10 309))] } "n" =
      .ok (.int (Nat.pow 10 309)) := rfl
  rw [eval, eval, hname, ok_bind, eval, ok_bind, Literal.toValue, applyBinary_eq (by decide : BinaryOp.mul ≠ .concat),
    BinaryOp.result, hproduct]
  rfl

end Evaluator

end TemplateEngine

/-
How an expression fails. An error has the form that evaluation gives it, and so do the faults that evaluation lets through;
all other failures are those of a callable of the embedding program.
-/
import TemplateEngine.Proofs.Eval
import TemplateEngine.Proofs.Value.Printer

namespace TemplateEngine

/-- An error that evaluation or a loop raises itself. -/
def EvalError.isPlain : EvalError → Bool
  | custom _ => false
  | located _ _ => false
  | outputSource _ _ _ => false
  | outputFault _ _ _ => false
  | tagFault _ _ _ => false
  | _ => true

namespace Evaluator

variable {ev : Evaluator} {s : Scope} {failure : Failure}

/-- How an expression may fail: with an error of evaluation, with a fault that is not about types, or as a callable of the
embedding program does. -/
inductive MayFail (ev : Evaluator) : Failure → Prop
  | plain {e : EvalError} (h : e.isPlain = true) : MayFail ev (.evaluation e)
  | fault {f : Fault} (h : ∀ p, f ≠ .type p) : MayFail ev (.fault f)
  | host {name : String} {args : List Value} {failure : Failure} (h : ev.host.call name args = .error failure)
    (hf : ∀ f, failure ≠ .fault f) : MayFail ev failure

theorem mayFail_missing {e : EvalError} (he : e.isPlain = true) (h : ev.missing e = .error failure) :
    ev.MayFail failure := by
  unfold missing at h
  split at h <;> cases h
  exact .plain he

/-- A failure that shows a value, or the fault of a value that has no quoted form. -/
theorem mayFail_shown {α : Type} {v : Value} {k : String → Except Failure α}
    (hk : ∀ shown, k shown = .error failure → ev.MayFail failure)
    (h : (liftFault v.quotedForm >>= k) = .error failure) : ev.MayFail failure := by
  rcases bind_eq_error.1 h with h | ⟨shown, -, h⟩
  · obtain ⟨f, hq, rfl⟩ := liftFault_eq_error h
    rw [Value.quotedForm_eq_error hq]
    exact .fault nofun
  · exact hk shown h

/-- A failure that shows an expression, or the fault of a constant that is not shown. -/
theorem mayFail_shownExpr {α : Type} {e : Expr} {k : String → Except Failure α}
    (hk : ∀ shown, k shown = .error failure → ev.MayFail failure)
    (h : (liftFault e.shown >>= k) = .error failure) : ev.MayFail failure := by
  rcases bind_eq_error.1 h with h | ⟨shown, -, h⟩
  · obtain ⟨f, hf, rfl⟩ := liftFault_eq_error h
    unfold Expr.shown at hf
    split at hf <;> cases hf
    exact .fault nofun
  · exact hk shown h

theorem mayFail_nameValue {n : String} (h : ev.nameValue s n = .error failure) : ev.MayFail failure := by
  unfold nameValue at h
  split at h
  · cases h
  · exact mayFail_missing rfl h

theorem mayFail_memberOf {target : Value} {n : String} (h : ev.memberOf target n = .error failure) :
    ev.MayFail failure := by
  unfold memberOf at h
  split at h
  · cases h
  · split at h
    · cases h
    · exact mayFail_missing rfl h
    · cases h
      exact .plain rfl

theorem mayFail_itemOf {target key : Value} (h : ev.itemOf target key = .error failure) : ev.MayFail failure := by
  unfold itemOf at h
  split at h
  · cases h
  · split at h
    · cases h
    · split at h
      · exact mayFail_shown (fun shown h => by cases h; exact .plain rfl) h
      · exact mayFail_shown (fun shown h => by cases h) h
    · refine mayFail_shown (fun shown h => ?_) h
      split at h <;> cases h <;> exact .plain rfl

/-- Calling a built-in callable fails with a fault. -/
theorem callable_eq_error {host : Host} {c : Callable} {args : List Value} (h : c.apply host args = .error failure) :
    (∃ f, failure = .fault f) ∨ ∃ name, host.call name args = .error failure := by
  unfold Callable.apply at h
  split at h
  · obtain ⟨f, -, h⟩ := liftFault_eq_error h
    exact .inl ⟨f, h⟩
  · obtain ⟨f, -, h⟩ := liftFault_eq_error h
    exact .inl ⟨f, h⟩
  · exact .inr ⟨_, h⟩

theorem apply_eq_error {host : Host} {v : Value} {args : List Value} (h : v.apply host args = .error failure) :
    (∃ f, failure = .fault f) ∨ ∃ name, host.call name args = .error failure := by
  unfold Value.apply at h
  split at h
  · exact callable_eq_error h
  · cases h
    exact .inl ⟨_, rfl⟩

/-- A fault of a call is described. -/
theorem mayFail_describe {error : Fault → EvalError} (he : ∀ f, (error f).isPlain = true) {r : Except Failure Value}
    {args : List Value} (hr : ∀ failure, r = .error failure → (∃ f, failure = .fault f) ∨
      ∃ name, ev.host.call name args = .error failure)
    (h : describe error r = .error failure) : ev.MayFail failure := by
  unfold describe at h
  split at h
  · cases h
    exact .plain (he _)
  · rename_i hno
    have hno : ∀ f, failure ≠ .fault f := fun f hf => hno f (hf ▸ h)
    rcases hr failure h with ⟨f, hf⟩ | ⟨name, hhost⟩
    · exact absurd hf (hno f)
    · exact .host hhost hno

theorem mayFail_applyUnary {op : UnaryOp} {v : Value} (h : applyUnary op v = .error failure) : ev.MayFail failure := by
  unfold applyUnary at h
  split at h <;> cases h
  exact .plain rfl

/-- A fault of an arithmetic operator is described, unless it is an overflow or a foreign one. -/
theorem mayFail_applyBinary {memory : Nat} {e : Expr} {op : BinaryOp} {l r : Value}
    (h : applyBinary memory e op l r = .error failure) : ev.MayFail failure := by
  unfold applyBinary at h
  cases op with
  | concat =>
    obtain ⟨f, hf, rfl⟩ := liftFault_eq_error h
    have hwritten : f = .value .digitsWritten := by
      rcases bind_eq_error.1 hf with hl | ⟨left, -, hf⟩
      · exact Value.outputText_eq_error hl
      · rcases bind_eq_error.1 hf with hr | ⟨right, -, hf⟩
        · exact Value.outputText_eq_error hr
        · cases hf
    rw [hwritten]
    exact .fault nofun
  | add | sub | mul | div | floorDiv | mod =>
    dsimp only at h
    split at h
    · cases h
    · cases h
      exact .fault nofun
    · cases h
      exact .fault nofun
    · exact mayFail_shownExpr (fun shown h => by cases h; exact .plain rfl) h

theorem mayFail_applyCompare {e : Expr} {op : CompareOp} {l r : Value} (h : applyCompare e op l r = .error failure) :
    ev.MayFail failure := by
  unfold applyCompare at h
  split at h
  · cases h
  · exact mayFail_shownExpr (fun shown h => by cases h; exact .plain rfl) h
  · rename_i hno _
    cases h
    exact .fault hno

/-! ## Expressions -/

mutual

theorem mayFail_eval : ∀ (e : Expr) {s : Scope}, ev.eval s e = .error failure → ev.MayFail failure
  | .literal l, s, h => by
    rw [eval] at h
    cases h
  | .name n, s, h => by
    rw [eval] at h
    exact mayFail_nameValue h
  | .member target n, s, h => by
    rw [eval] at h
    rcases bind_eq_error.1 h with h | ⟨t, -, h⟩
    · exact mayFail_eval target h
    · exact mayFail_memberOf h
  | .item target key, s, h => by
    rw [eval] at h
    rcases bind_eq_error.1 h with h | ⟨t, -, h⟩
    · exact mayFail_eval target h
    · rcases bind_eq_error.1 h with h | ⟨k, -, h⟩
      · exact mayFail_eval key h
      · exact mayFail_itemOf h
  | .call function args, s, h => by
    rw [eval] at h
    rcases bind_eq_error.1 h with h | ⟨f, -, h⟩
    · exact mayFail_eval function h
    · split at h
      · rename_i c
        rcases bind_eq_error.1 h with h | ⟨vs, -, h⟩
        · exact mayFail_evalAll args h
        · exact mayFail_shownExpr
            (fun _ h => mayFail_describe (fun _ => rfl) (fun _ => callable_eq_error) (map_eq_error.1 h)) h
      · exact mayFail_shownExpr (fun shown h => by cases h; exact .plain rfl) h
  | .unary op operand, s, h => by
    rw [eval] at h
    rcases bind_eq_error.1 h with h | ⟨v, -, h⟩
    · exact mayFail_eval operand h
    · exact mayFail_applyUnary (map_eq_error.1 h)
  | .binary op left right, s, h => by
    rw [eval] at h
    rcases bind_eq_error.1 h with h | ⟨l, -, h⟩
    · exact mayFail_eval left h
    · rcases bind_eq_error.1 h with h | ⟨r, -, h⟩
      · exact mayFail_eval right h
      · exact mayFail_applyBinary (map_eq_error.1 h)
  | .logical op left right, s, h => by
    rw [eval] at h
    rcases bind_eq_error.1 h with h | ⟨l, -, h⟩
    · exact mayFail_eval left h
    · cases op <;> dsimp only at h <;> split at h <;> first | exact mayFail_eval right h | cases h
  | .not operand, s, h => by
    rw [eval] at h
    rcases bind_eq_error.1 h with h | ⟨v, -, h⟩
    · exact mayFail_eval operand h
    · cases h
  | .compare op left right, s, h => by
    rw [eval] at h
    rcases bind_eq_error.1 h with h | ⟨l, -, h⟩
    · exact mayFail_eval left h
    · rcases bind_eq_error.1 h with h | ⟨r, -, h⟩
      · exact mayFail_eval right h
      · exact mayFail_applyCompare h
  | .conditional body condition orElse, s, h => by
    rw [eval] at h
    rcases bind_eq_error.1 h with h | ⟨c, -, h⟩
    · exact mayFail_eval condition h
    · split at h
      · exact mayFail_eval body h
      · exact mayFail_eval orElse h
  | .list items, s, h => by
    rw [eval] at h
    rcases bind_eq_error.1 h with h | ⟨vs, -, h⟩
    · exact mayFail_evalAll items h
    · cases h
  | .dict entries, s, h => by
    rw [eval] at h
    rcases bind_eq_error.1 h with h | ⟨vs, -, h⟩
    · exact mayFail_evalEntries entries h
    · cases h
  | .filter value n args, s, h => by
    rw [eval] at h
    split at h
    · cases h
      exact .plain rfl
    · rcases bind_eq_error.1 h with h | ⟨v, -, h⟩
      · exact mayFail_eval value h
      · rcases bind_eq_error.1 h with h | ⟨vs, -, h⟩
        · exact mayFail_evalAll args h
        · exact mayFail_describe (fun _ => rfl) (fun _ => apply_eq_error) (map_eq_error.1 h)

theorem mayFail_evalAll : ∀ (es : List Expr) {s : Scope}, ev.evalAll s es = .error failure → ev.MayFail failure
  | [], s, h => nomatch h
  | e :: es, s, h => by
    rw [evalAll] at h
    rcases bind_eq_error.1 h with h | ⟨v, -, h⟩
    · exact mayFail_eval e h
    · rcases bind_eq_error.1 h with h | ⟨vs, -, h⟩
      · exact mayFail_evalAll es h
      · cases h

theorem mayFail_evalEntries : ∀ (es : List (Expr × Expr)) {s : Scope} {done : List (Value × Value)},
    ev.evalEntries s done es = .error failure → ev.MayFail failure
  | [], s, done, h => nomatch h
  | (key, value) :: rest, s, done, h => by
    rw [evalEntries] at h
    rcases bind_eq_error.1 h with h | ⟨k, -, h⟩
    · exact mayFail_eval key h
    · rcases bind_eq_error.1 h with h | ⟨v, -, h⟩
      · exact mayFail_eval value h
      · split at h
        · exact mayFail_evalEntries rest h
        · exact mayFail_shown (fun shown h => by cases h; exact .plain rfl) h

end

end Evaluator

end TemplateEngine

/-
The filters that convert a value to a number. What is no number, or a text of another form, gives the fallback; but a
conversion that goes beyond the range of its result fails: that of an infinite number to an integer, and that of an
integer to a floating point number that is near to no finite one.
-/
import TemplateEngine.Callable.Filter
import TemplateEngine.Proofs.Number.Binary64
import TemplateEngine.Proofs.Value.Operators

namespace TemplateEngine

open Number

namespace Value

/-- The text from which a number is read. -/
def numberText? : Value → Option String
  | str s => some s
  | bytes bs => some (asciiText bs)
  | _ => Option.none

/-- An infinite number, or a text that writes one and no integer. -/
def ReadsInfinite (v : Value) : Prop :=
  v.IsInfinite ∨ ∃ text problem x negative, v.numberText? = some text ∧ readInt text = .error problem ∧
    readFloat? text = some x ∧ denotation x = .infinite negative

/-- An integer so large that no finite floating point number is near to it. -/
def ExceedsFloats (v : Value) : Prop :=
  ∃ n, v.numeric? = some (.int n) ∧ Nat.pow 2 1024 - Nat.pow 2 970 ≤ n.natAbs

end Value

/-- A conversion fails with one fault, for some values and for no others; else its result is a number of a kind or the
fallback. -/
def Converts (r : Except Fault Value) (fault : Fault) (fails : Prop) (kind : Value → Prop) (fallback : Value) : Prop :=
  fails ∧ r = .error fault ∨ ¬ fails ∧ ∃ w, r = .ok w ∧ (kind w ∨ w = fallback)

variable {v fallback : Value}

theorem Converts.congr {r : Except Fault Value} {fault : Fault} {fails fails' : Prop} {kind : Value → Prop}
    (h : Converts r fault fails kind fallback) (hfails : fails ↔ fails') : Converts r fault fails' kind fallback := by
  rwa [propext hfails] at h

/-! ## Misfits -/

/-- A fault for the type or the value of an operand. -/
def Fault.isMisfit : Fault → Bool
  | type _ => true
  | value _ => true
  | _ => false

theorem orElseOnMisfit_of_misfit {α : Type} {f : Fault} (hf : f.isMisfit = true) (second : Unit → Except Fault α) :
    orElseOnMisfit (.error f) second = second () := by
  cases f <;> first | rfl | cases hf

/-! ## Sources of numbers -/

/-- What a conversion reads: a text, a number, or nothing that it knows. -/
inductive NumberSource (v : Value) : Prop
  | text {text shown : String} (ht : v.numberText? = some text) (hn : v.numeric? = none)
      (hwhole : v.toWhole = Value.wholeOfText text shown) (hfloat : v.toFloat = Value.floatOfText text)
  | number {n : Numeric} (ht : v.numberText? = none) (hn : v.numeric? = some n) (hwhole : v.toWhole = n.toInt)
      (hfloat : v.toFloat = n.toFloat)
  | other {p q : TypeProblem} (ht : v.numberText? = none) (hn : v.numeric? = none)
      (hwhole : v.toWhole = .error (.type p)) (hfloat : v.toFloat = .error (.type q))

theorem numberSource (v : Value) : NumberSource v := by
  cases v with
  | str s => exact .text rfl rfl rfl rfl
  | bytes bs => exact .text rfl rfl rfl rfl
  | bool b => exact .number rfl rfl rfl rfl
  | int n => exact .number rfl rfl rfl rfl
  | float x => exact .number rfl rfl rfl rfl
  | nan m => exact .number rfl rfl rfl rfl
  | _ => exact .other rfl rfl rfl rfl

theorem exceedsFloats_iff : v.ExceedsFloats ↔ v.BeyondFloats :=
  exists_congr fun n => and_congr_right fun _ => (floatOfInt?_eq_none_iff n).symm

theorem wholeOfText_eq_error {text : String} {problem : IntProblem} (h : readInt text = .error problem)
    (shown : String) : ∃ p, Value.wholeOfText text shown = .error (.value p) := by
  unfold Value.wholeOfText
  rw [h]
  cases problem <;> exact ⟨_, rfl⟩

theorem readsInfinite_of_text {text : String} (ht : v.numberText? = some text) (hn : v.numeric? = none) :
    v.ReadsInfinite ↔ (∃ problem, readInt text = .error problem) ∧
      ∃ x, readFloat? text = some x ∧ ∃ negative, denotation x = .infinite negative := by
  simp [Value.ReadsInfinite, Value.IsInfinite, ht, hn]

theorem readsInfinite_of_no_text (ht : v.numberText? = none) : v.ReadsInfinite ↔ v.IsInfinite := by
  simp [Value.ReadsInfinite, ht]

namespace BuiltinFilter

/-! ## The filter for integers -/

/-- What a floating point number gives in place of an integer. -/
theorem wholeOfFloat_converts {r : Except Fault Float} {x : Float} (hr : r = .ok x) (fallback : Value) :
    Converts (orElseOnMisfit (do return .int (← (Numeric.float (← r)).toInt)) fun _ => .ok fallback)
      (.overflow .infinity) (∃ negative, denotation x = .infinite negative) (∃ n, · = .int n) fallback := by
  subst hr
  show Converts (orElseOnMisfit ((Numeric.float x).toInt >>= fun n => .ok (.int n)) _) _ _ _ _
  rw [Numeric.toInt]
  cases hx : denotation x with
  | nan => exact .inr ⟨by simp, fallback, rfl, .inr rfl⟩
  | infinite negative => exact .inl ⟨⟨negative, rfl⟩, rfl⟩
  | finite negative mantissa exponent => exact .inr ⟨by simp, _, rfl, .inl ⟨_, rfl⟩⟩

/-- A value that gives no integer at once is taken for a floating point number. -/
theorem wholeOr_of_misfit {f : Fault} (h : v.toWhole = .error f) (hf : f.isMisfit = true) (fallback : Value) :
    wholeOr v fallback =
      orElseOnMisfit (do return .int (← (Numeric.float (← v.toFloat)).toInt)) fun _ => .ok fallback := by
  rw [wholeOr, h]
  exact orElseOnMisfit_of_misfit hf _

theorem wholeOr_converts (v fallback : Value) :
    Converts (wholeOr v fallback) (.overflow .infinity) v.ReadsInfinite (∃ n, · = .int n) fallback := by
  cases numberSource v with
  | @text text shown ht hn hwhole hfloat =>
    rw [propext (readsInfinite_of_text ht hn)]
    cases hread : readInt text with
    | ok n =>
      rw [Value.wholeOfText, hread] at hwhole
      rw [wholeOr, hwhole]
      exact .inr ⟨by simp, .int n, rfl, .inl ⟨n, rfl⟩⟩
    | error problem =>
      obtain ⟨p, hp⟩ := wholeOfText_eq_error hread shown
      rw [wholeOr_of_misfit (hwhole.trans hp) rfl]
      cases hx : readFloat? text with
      | none =>
        rw [hfloat, Value.floatOfText, hx]
        exact .inr ⟨by simp, fallback, rfl, .inr rfl⟩
      | some x =>
        have hok : v.toFloat = .ok x := by rw [hfloat, Value.floatOfText, hx]
        exact (wholeOfFloat_converts hok fallback).congr (by simp)
  | @number n ht hn hwhole hfloat =>
    rw [propext (readsInfinite_of_no_text ht)]
    cases n with
    | int n =>
      rw [wholeOr, hwhole]
      exact .inr ⟨by simp [Value.IsInfinite, hn], .int n, rfl, .inl ⟨n, rfl⟩⟩
    | float x =>
      have hinfinite : v.IsInfinite ↔ ∃ negative, denotation x = .infinite negative := by simp [Value.IsInfinite, hn]
      rw [propext hinfinite]
      cases hx : denotation x with
      | nan =>
        have hmisfit : v.toWhole = .error (.value .noNumber) := by rw [hwhole, Numeric.toInt, hx]
        rw [wholeOr_of_misfit hmisfit rfl, ← hx]
        exact wholeOfFloat_converts hfloat fallback
      | infinite negative =>
        rw [wholeOr, hwhole, Numeric.toInt, hx]
        exact .inl ⟨⟨negative, rfl⟩, rfl⟩
      | finite negative mantissa exponent =>
        rw [wholeOr, hwhole, Numeric.toInt, hx]
        exact .inr ⟨by simp, _, rfl, .inl ⟨_, rfl⟩⟩
  | other ht hn hwhole hfloat =>
    rw [propext (readsInfinite_of_no_text ht), wholeOr_of_misfit hwhole rfl, hfloat]
    exact .inr ⟨by simp [Value.IsInfinite, hn], fallback, rfl, .inr rfl⟩

/-! ## The filter for floating point numbers -/

theorem floatOr_converts (v fallback : Value) :
    Converts (floatOr v fallback) (.overflow .float) v.ExceedsFloats Value.IsFloat fallback := by
  have hexceeds (hn : ∀ n, v.numeric? ≠ some (.int n)) : ¬ v.BeyondFloats := by
    rintro ⟨n, hv, -⟩
    exact hn n hv
  rw [propext exceedsFloats_iff]
  unfold floatOr
  split
  · rename_i m
    exact .inr ⟨hexceeds (by simp [Value.numeric?]), .nan m, rfl, .inl ⟨_, rfl⟩⟩
  · cases numberSource v with
    | @text text shown ht hn hwhole hfloat =>
      rw [hfloat, Value.floatOfText]
      refine .inr ⟨hexceeds (by simp [hn]), ?_⟩
      cases readFloat? text with
      | none => exact ⟨fallback, rfl, .inr rfl⟩
      | some x => exact ⟨.float x, rfl, .inl ⟨x, rfl⟩⟩
    | @number n ht hn hwhole hfloat =>
      rw [hfloat]
      cases n with
      | int n =>
        have hbeyond : v.BeyondFloats ↔ floatOfInt? n = none := by simp [Value.BeyondFloats, hn]
        rw [propext hbeyond, Numeric.toFloat]
        cases floatOfInt? n with
        | none => exact .inl ⟨rfl, rfl⟩
        | some x => exact .inr ⟨by simp, .float x, rfl, .inl ⟨x, rfl⟩⟩
      | float x => exact .inr ⟨hexceeds (by simp [hn]), .float x, rfl, .inl ⟨x, rfl⟩⟩
    | other ht hn hwhole hfloat =>
      rw [hfloat]
      exact .inr ⟨hexceeds (by simp [hn]), fallback, rfl, .inr rfl⟩

/-- The number filters give a number of their kind or the fallback, but fail with an overflow: the one for integers at
an infinite number and at a text that writes one, the one for floating point numbers at an integer beyond them. -/
theorem number_filters_convert (others : Attributes) (v : Value) (args : List Value) :
    Converts (int.apply others v args) (.overflow .infinity) v.ReadsInfinite (∃ n, · = .int n) (args.headD (.int 0)) ∧
    Converts (float.apply others v args) (.overflow .float) v.ExceedsFloats Value.IsFloat (args.headD (.float 0.0)) := by
  have harg (fallback : Value) : args[0]?.getD fallback = args.headD fallback := by cases args <;> rfl
  constructor
  · rw [← harg]
    exact wholeOr_converts v _
  · rw [← harg]
    exact floatOr_converts v _

/-- A text that writes infinity has no integer, but does not give the fallback either. -/
theorem int_filter_infinity : int.apply (fun _ _ => .missing) (.str "inf") [] = .error (.overflow .infinity) := by
  rfl

end BuiltinFilter

end TemplateEngine

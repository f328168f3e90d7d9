/-
Operators on values with other marks: what an operator or a conversion gives, it gives with the marks changed, and it
fails with the same fault.
-/
import TemplateEngine.Eval
import TemplateEngine.Proofs.Format.Renaming
import TemplateEngine.Proofs.Value.Operators
import TemplateEngine.Proofs.Value.Renaming

namespace TemplateEngine

namespace Value

variable (σ : Renaming)

/-! ## Arithmetic -/

theorem arithmetic_rename (symbol : String) (f : Numeric → Numeric → Except Fault Numeric) (a b : Value) :
    arithmetic symbol f (a.rename σ) (b.rename σ) = rename σ <$> arithmetic symbol f a b := by
  unfold arithmetic
  rw [numeric?_rename, numeric?_rename, qualifiedTypeName_rename, qualifiedTypeName_rename]
  split
  · rw [Functor.map_map]
    simp only [rename_toValue]
  · rfl

theorem add_of_not_sequence {a : Value} (h : a.isSequence = false) (b : Value) :
    a.add b = arithmetic "+" Numeric.add a b := by
  cases a <;> first
  | rfl
  | cases h

theorem add_rename (a b : Value) : (a.rename σ).add (b.rename σ) = rename σ <$> a.add b := by
  cases hs : a.isSequence with
  | false =>
    rw [add_of_not_sequence hs, add_of_not_sequence ((isSequence_rename σ a).trans hs)]
    exact arithmetic_rename σ "+" Numeric.add a b
  | true =>
    cases a with
    | str s => cases b <;> rfl
    | bytes s => cases b <;> rfl
    | list s =>
      cases b with
      | list t =>
        simp only [rename_list, add, ← List.map_append]
        rw [← rename_list]
        rfl
      | _ =>
        simp only [rename, add]
        rfl
    | tuple s =>
      cases b with
      | tuple t =>
        simp only [rename_tuple, add, ← List.map_append]
        rw [← rename_tuple]
        rfl
      | _ =>
        simp only [rename, add]
        rfl
    | _ => cases hs

theorem repeated_rename (count : Nat) (v : Value) : repeated count (v.rename σ) = (repeated count v).rename σ := by
  cases v <;> simp [repeated, List.map_flatten]

theorem tooLong_rename (v : Value) : (v.rename σ).tooLong = v.tooLong := by
  cases v <;> rfl

theorem itemSize_rename (v : Value) : (v.rename σ).itemSize = v.itemSize := by
  cases v <;> rfl

theorem repeatBy_rename (memory : Nat) (sequence other : Value) :
    repeatBy memory (sequence.rename σ) (other.rename σ) = rename σ <$> repeatBy memory sequence other := by
  unfold repeatBy
  rw [whole?_rename, qualifiedTypeName_rename]
  cases other.whole? with
  | none => rfl
  | some count =>
    simp only [length?_rename, tooLong_rename, repeated_rename, itemSize_rename]
    split_ifs <;> rfl

theorem mul_rename (memory : Nat) (a b : Value) :
    (a.rename σ).mul memory (b.rename σ) = rename σ <$> a.mul memory b := by
  unfold mul
  rw [isSequence_rename, isSequence_rename]
  split_ifs
  · exact repeatBy_rename σ memory a b
  · exact repeatBy_rename σ memory b a
  · exact arithmetic_rename σ "*" Numeric.mul a b

theorem mod_of_not_text {a : Value} (hs : ∀ s, a ≠ str s) (hbs : ∀ bs, a ≠ bytes bs) (memory : Nat) (b : Value) :
    a.mod memory b = arithmetic "%" Numeric.mod a b := by
  cases a with
  | str s => exact absurd rfl (hs s)
  | bytes bs => exact absurd rfl (hbs bs)
  | _ => rfl

theorem mod_rename (memory : Nat) (a b : Value) :
    (a.rename σ).mod memory (b.rename σ) = rename σ <$> a.mod memory b := by
  cases a with
  | str s => exact Format.fillText_rename σ memory s b
  | bytes s => exact Format.fillBytes_rename σ memory s b
  | _ =>
    rw [mod_of_not_text (by simp) (by simp), mod_of_not_text (by simp) (by simp)]
    exact arithmetic_rename σ "%" Numeric.mod _ b

/-- The value of an operator is the same up to the marks. -/
theorem result_rename (op : BinaryOp) (memory : Nat) (a b : Value) :
    op.result memory (a.rename σ) (b.rename σ) = rename σ <$> op.result memory a b := by
  cases op with
  | add => exact add_rename σ a b
  | sub => exact arithmetic_rename σ "-" Numeric.sub a b
  | mul => exact mul_rename σ memory a b
  | div => exact arithmetic_rename σ "/" Numeric.div a b
  | floorDiv => exact arithmetic_rename σ "//" Numeric.floorDiv a b
  | mod => exact mod_rename σ memory a b
  | concat =>
    rw [BinaryOp.result, BinaryOp.result, outputText_rename, outputText_rename]
    cases a.outputText with
    | error f => rfl
    | ok s => cases b.outputText <;> rfl

theorem neg?_rename (v : Value) : (v.rename σ).neg? = v.neg?.map (rename σ) := by
  rw [neg?, neg?, numeric?_rename, Option.map_map]
  exact congrArg (v.numeric?.map ·) (funext fun n => (rename_toValue σ n.neg).symm)

theorem pos?_rename (v : Value) : (v.rename σ).pos? = v.pos?.map (rename σ) := by
  cases v <;> rfl

/-! ## Membership -/

theorem any_same_rename (v : Value) (items : List Value) :
    (items.map (rename σ)).any ((v.rename σ).same ·) = items.any (v.same ·) := by
  rw [List.any_map]
  exact congrArg items.any (funext fun item => same_rename σ v item)

theorem contains_rename (container v : Value) : (container.rename σ).contains (v.rename σ) = container.contains v := by
  cases container with
  | str s => cases v <;> rfl
  | bytes s => cases v <;> rfl
  | list items => rw [rename_list, contains, contains, any_same_rename]
  | tuple items => rw [rename_tuple, contains, contains, any_same_rename]
  | dict es =>
    rw [rename_dict, contains, contains, checkKey_rename, valueOfKey?_rename]
    simp only [Option.isSome_map]
  | _ => rfl

/-! ## Conversions -/

theorem toWhole_rename (v : Value) : (v.rename σ).toWhole = v.toWhole := by
  cases v <;> rfl

theorem toFloat_rename (v : Value) : (v.rename σ).toFloat = v.toFloat := by
  cases v <;> rfl

end Value

namespace Evaluator

variable (σ : Renaming)

theorem compareValues_rename (op : CompareOp) (l r : Value) :
    compareValues op (l.rename σ) (r.rename σ) = compareValues op l r := by
  cases op <;> simp only [compareValues, Value.equal_rename, Value.ordered_rename, Value.contains_rename]

theorem applyUnary_rename (op : UnaryOp) (v : Value) :
    applyUnary op (v.rename σ) = Value.rename σ <$> applyUnary op v := by
  unfold applyUnary
  rw [Value.typeName_rename]
  cases op with
  | neg =>
    dsimp only
    rw [Value.neg?_rename]
    cases v.neg? <;> rfl
  | pos =>
    dsimp only
    rw [Value.pos?_rename]
    cases v.pos? <;> rfl

variable (ev : Evaluator)

theorem passesNone_rename (v : Value) : ev.passesNone (v.rename σ) = ev.passesNone v := by
  unfold passesNone
  cases ev.undefined <;> cases v <;> rfl

theorem missing_rename (e : EvalError) : Value.rename σ <$> ev.missing e = ev.missing e := by
  unfold missing
  split <;> rfl

theorem memberOf_rename (ha : ev.host.attributes.Blind σ) (target : Value) (name : String) :
    ev.memberOf (target.rename σ) name = Value.rename σ <$> ev.memberOf target name := by
  unfold memberOf
  rw [passesNone_rename, Value.member_rename σ ha, Value.typeName_rename]
  split
  · rfl
  · cases target.member ev.host.attributes name with
    | found v => rfl
    | missing => exact (missing_rename σ ev _).symm
    | failed f => rfl

theorem itemOf_rename (target key : Value) :
    ev.itemOf (target.rename σ) (key.rename σ) = Value.rename σ <$> ev.itemOf target key := by
  unfold itemOf
  rw [passesNone_rename, Value.readItem_rename, Value.typeName_rename, Value.quotedForm_rename]
  split
  · rfl
  · cases target.readItem key with
    | found v => rfl
    | missing => cases ev.undefined <;> cases key.quotedForm <;> rfl
    | failed f => cases key.quotedForm <;> cases f <;> rfl

end Evaluator

end TemplateEngine

/-
Operators that go beyond the range of their result. Of two numbers that are not of one kind the integer has to be near a
floating point number, a quotient of integers has to be near one too, a sequence may be repeated as often as there is
memory for, and a format has to have room for what it writes; all other faults of the operators are about the types or
the values of the operands.
-/
import TemplateEngine.Expr.Basic
import TemplateEngine.Proofs.Format.Beyond
import TemplateEngine.Value.Operators

namespace TemplateEngine

open Number

variable {memory : Nat}

/-! ## Numbers -/

namespace Value

/-- A floating point number. -/
def IsFloat (v : Value) : Prop :=
  ∃ x, v.numeric? = some (.float x)

/-- A floating point number and an integer that is near to none. -/
def Mixed (a b : Value) : Prop :=
  a.BeyondFloats ∧ b.IsFloat ∨ a.IsFloat ∧ b.BeyondFloats

variable {a b v : Value} {symbol : String} {ints : Int → Int → Except Fault Numeric}
  {floats : Float → Float → Except Fault Float}

/-- Operands that are not both integers are taken for floating point numbers, one after the other. -/
theorem escapes_floats (hfloats : ∀ x y, ¬ Escapes (floats x y)) (m n : Numeric) :
    Escapes (do let x ← m.toFloat; let y ← n.toFloat; return Numeric.float (← floats x y)) ↔
      Escapes m.toFloat ∨ (∃ x, m.toFloat = .ok x) ∧ Escapes n.toFloat := by
  have hlast (x y : Float) : ¬ Escapes (do return Numeric.float (← floats x y)) := by
    rw [escapes_bind]
    rintro (h | ⟨z, -, h⟩)
    · exact hfloats x y h
    · exact not_escapes_pure _ h
  simp only [escapes_bind, hlast, and_false, exists_false, or_false, ← exists_and_right]

/-- Arithmetic goes beyond the range of its result as it does on two integers, or where it has to take an integer for a
floating point number. -/
theorem escapes_arithmetic (hfloats : ∀ x y, ¬ Escapes (floats x y)) :
    Escapes (arithmetic symbol (Numeric.combine ints floats) a b) ↔
      (∃ m n, a.numeric? = some (.int m) ∧ b.numeric? = some (.int n) ∧ Escapes (ints m n)) ∨ Mixed a b := by
  unfold arithmetic
  split
  · rename_i m n hm hn
    rw [escapes_map]
    cases m with
    | int i =>
      cases n with
      | int j => simp [Numeric.combine, Mixed, BeyondFloats, IsFloat, hm, hn]
      | float y =>
        rw [Numeric.combine, escapes_floats hfloats, escapes_toFloat]
        · simp [Numeric.toFloat, Mixed, BeyondFloats, IsFloat, hm, hn]
        · intro i' j _ hj
          cases hj
    | float x =>
      rw [Numeric.combine, escapes_floats hfloats, escapes_toFloat, escapes_toFloat]
      · cases n with
        | int j => simp [Numeric.toFloat, Mixed, BeyondFloats, IsFloat, hm, hn]
        | float y => simp [Numeric.toFloat, Mixed, BeyondFloats, IsFloat, hm, hn]
      · intro i j hi
        cases hi
  · rename_i hno
    refine iff_of_false (by simp [Fault.isUncaught]) ?_
    rintro (⟨m, n, hm, hn, -⟩ | ⟨⟨m, hm, -⟩, y, hn⟩ | ⟨⟨x, hm⟩, n, hn, -⟩) <;> exact hno _ _ hm hn

/-! ## Sequences -/

/-- A sequence is to be repeated more often than any sequence has items, or as often as the memory does not hold. -/
def TooLong (memory : Nat) (sequence other : Value) : Prop :=
  sequence.isSequence = true ∧ ∃ count length, other.whole? = some count ∧ sequence.length?.getD 0 = length ∧
    (isIndex count = false ∨ 0 < length ∧ 0 < count ∧
      (isIndex (length * count) = false ∨ memory < sequence.itemSize * (length * count)))

theorem isUncaught_tooLong (v : Value) : v.tooLong.isUncaught = true := by
  unfold tooLong
  split <;> rfl

theorem escapes_repeatBy (sequence other : Value) : Escapes (repeatBy memory sequence other) ↔
    ∃ count length, other.whole? = some count ∧ sequence.length?.getD 0 = length ∧
      (isIndex count = false ∨ 0 < length ∧ 0 < count ∧
        (isIndex (length * count) = false ∨ memory < sequence.itemSize * (length * count))) := by
  unfold repeatBy
  cases hw : other.whole? with
  | none => simp [Fault.isUncaught]
  | some count =>
    generalize sequence.length?.getD 0 = length
    simp only [Option.some.injEq, exists_and_left, exists_eq_left']
    cases hi : isIndex count with
    | false => simp [Fault.isUncaught]
    | true =>
      simp only [Bool.not_true, Bool.false_eq_true, if_false, Bool.true_eq_false, false_or]
      split
      · rename_i hzero
        simp only [Bool.or_eq_true, decide_eq_true_eq] at hzero
        refine iff_of_false (not_escapes_ok _) ?_
        rintro ⟨hlength, hcount, -⟩
        omega
      · rename_i hpos
        simp only [Bool.or_eq_true, decide_eq_true_eq] at hpos
        rw [and_iff_right (by omega : 0 < length), and_iff_right (by omega : 0 < count)]
        split
        · rename_i hlong
          exact iff_of_true (escapes_error.2 (isUncaught_tooLong _)) (.inl (by simpa using hlong))
        · rename_i hlong
          rw [or_iff_right (by simpa using hlong)]
          split
          · rename_i hlimit
            exact iff_of_true (escapes_error.2 rfl) hlimit
          · rename_i hlimit
            exact iff_of_false (not_escapes_ok _) hlimit

theorem numeric?_of_isSequence (h : v.isSequence = true) : v.numeric? = Option.none := by
  unfold isSequence at h
  split at h <;> first | rfl | cases h

theorem whole?_of_isSequence (h : v.isSequence = true) : v.whole? = Option.none := by
  unfold isSequence at h
  split at h <;> first | rfl | cases h

/-- A sequence is no operand of arithmetic. -/
theorem not_mixed_of_isSequence (h : a.isSequence = true ∨ b.isSequence = true) : ¬ Mixed a b := by
  rintro (⟨⟨m, hm, -⟩, y, hn⟩ | ⟨⟨x, hm⟩, n, hn, -⟩) <;>
    rcases h with h | h <;> simp_all [numeric?_of_isSequence h]

end Value

/-! ## Operators -/

/-- The value of an operator and its operands. -/
def BinaryOp.result (op : BinaryOp) (memory : Nat) (l r : Value) : Except Fault Value :=
  match op with
  | .add => l.add r
  | .sub => l.sub r
  | .mul => l.mul memory r
  | .div => l.div r
  | .floorDiv => l.floorDiv r
  | .mod => l.mod memory r
  | .concat => do return .str ((← l.outputText) ++ (← r.outputText))

/-- The operands of an arithmetic operator go beyond the range of its result. -/
inductive Overflows (memory : Nat) : BinaryOp → Value → Value → Prop
  | mixed {op : BinaryOp} {a b : Value} (hop : op ≠ .concat) (h : a.Mixed b) : Overflows memory op a b
  | quotient {a b : Value} {m n : Int} (ha : a.numeric? = some (.int m)) (hb : b.numeric? = some (.int n)) (hn : n ≠ 0)
      (h : nearestBits m.natAbs n.natAbs = infinityBits) : Overflows memory .div a b
  | repetition {a b : Value} (h : a.TooLong memory b ∨ b.TooLong memory a) : Overflows memory .mul a b
  | text {s : String} {v : Value} (h : Format.GoesBeyond .text memory s.toList v) : Overflows memory .mod (.str s) v
  | bytes {bs : List UInt8} {v : Value} (h : Format.GoesBeyond .bytes memory (bs.map Format.ofByte) v) :
      Overflows memory .mod (.bytes bs) v

namespace Value

/-- Operands of the operators on numbers alone go beyond the range of the result only where they are not of one kind. -/
theorem overflows_iff_mixed {op : BinaryOp} (hop : op = .add ∨ op = .sub ∨ op = .floorDiv) :
    Overflows memory op a b ↔ Mixed a b := by
  rcases hop with rfl | rfl | rfl <;> exact ⟨fun h => by cases h; assumption, .mixed (by decide)⟩

theorem escapes_add (a b : Value) : Escapes (a.add b) ↔ Overflows memory .add a b := by
  rw [overflows_iff_mixed (.inl rfl)]
  unfold add
  split
  · exact iff_of_false (not_escapes_ok _) (not_mixed_of_isSequence (.inl rfl))
  · exact iff_of_false (not_escapes_ok _) (not_mixed_of_isSequence (.inl rfl))
  · exact iff_of_false (not_escapes_ok _) (not_mixed_of_isSequence (.inl rfl))
  · exact iff_of_false (not_escapes_ok _) (not_mixed_of_isSequence (.inl rfl))
  · split
    · rename_i hs
      exact iff_of_false (by simp [Fault.isUncaught]) (not_mixed_of_isSequence (.inl hs))
    · rw [Numeric.add, escapes_arithmetic fun x y => not_escapes_ok (x + y)]
      simp

theorem escapes_sub (a b : Value) : Escapes (a.sub b) ↔ Overflows memory .sub a b := by
  rw [overflows_iff_mixed (.inr (.inl rfl)), sub, Numeric.sub, escapes_arithmetic fun x y => not_escapes_ok (x - y)]
  simp

theorem escapes_mul (a b : Value) : Escapes (a.mul memory b) ↔ Overflows memory .mul a b := by
  have hcases : Overflows memory .mul a b ↔ Mixed a b ∨ TooLong memory a b ∨ TooLong memory b a := by
    refine ⟨fun h => ?_, fun h => h.elim (.mixed nofun) .repetition⟩
    cases h with
    | mixed _ h => exact .inl h
    | repetition h => exact .inr h
  rw [hcases, mul]
  cases ha : a.isSequence with
  | true =>
    rw [if_pos rfl, escapes_repeatBy]
    simp [not_mixed_of_isSequence (.inl ha), TooLong, ha, whole?_of_isSequence ha]
  | false =>
    cases hb : b.isSequence with
    | true =>
      rw [if_neg Bool.false_ne_true, if_pos rfl, escapes_repeatBy]
      simp [not_mixed_of_isSequence (.inr hb), TooLong, ha, hb]
    | false =>
      rw [if_neg Bool.false_ne_true, if_neg Bool.false_ne_true, Numeric.mul,
        escapes_arithmetic fun x y => not_escapes_ok (x * y)]
      simp [TooLong, ha, hb]

/-- A division by zero is described. -/
theorem not_escapes_divided {α : Type} {p : Prop} [Decidable p] {operation : Division} {floating : Bool} {x : α} :
    ¬ Escapes (if p then .error (.zeroDivision operation floating) else .ok x) := by
  split <;> simp [Fault.isUncaught]

theorem escapes_divideInts (m n : Int) :
    Escapes (Numeric.divideInts m n) ↔ nearestBits m.natAbs n.natAbs = infinityBits := by
  unfold Numeric.divideInts
  dsimp only
  split
  · rename_i h
    exact iff_of_true (escapes_error.2 rfl) (by simpa using h)
  · rename_i h
    exact iff_of_false (not_escapes_ok _) (by simpa using h)

theorem escapes_div (a b : Value) : Escapes (a.div b) ↔ Overflows memory .div a b := by
  have hcases : Overflows memory .div a b ↔ (∃ m n, a.numeric? = some (.int m) ∧ b.numeric? = some (.int n) ∧ n ≠ 0 ∧
      nearestBits m.natAbs n.natAbs = infinityBits) ∨ Mixed a b := by
    constructor
    · intro h
      cases h with
      | mixed _ h => exact .inr h
      | quotient ha hb hn h => exact .inl ⟨_, _, ha, hb, hn, h⟩
    · rintro (⟨m, n, ha, hb, hn, h⟩ | h)
      · exact .quotient ha hb hn h
      · exact .mixed nofun h
  have hints (m n : Int) : Escapes (if n == 0 then .error (.zeroDivision .quotient false)
      else Numeric.float <$> Numeric.divideInts m n) ↔ n ≠ 0 ∧ nearestBits m.natAbs n.natAbs = infinityBits := by
    by_cases hn : n = 0
    · simp [hn, Fault.isUncaught]
    · rw [if_neg (by simpa using hn), escapes_map, escapes_divideInts, and_iff_right hn]
  rw [hcases, div, Numeric.div, escapes_arithmetic fun x y => not_escapes_divided]
  simp only [hints]

theorem escapes_floorDiv (a b : Value) : Escapes (a.floorDiv b) ↔ Overflows memory .floorDiv a b := by
  rw [overflows_iff_mixed (.inr (.inr rfl)), floorDiv, Numeric.floorDiv,
    escapes_arithmetic fun x y => not_escapes_divided, or_iff_right]
  rintro ⟨m, n, -, -, h⟩
  exact not_escapes_divided h

theorem escapes_mod (a b : Value) : Escapes (a.mod memory b) ↔ Overflows memory .mod a b := by
  unfold mod
  split
  · rename_i s v
    rw [Format.fillText, escapes_map, Format.escapes_fill]
    refine ⟨.text, fun h => ?_⟩
    cases h with
    | mixed _ h => exact absurd h (not_mixed_of_isSequence (.inl rfl))
    | text h => exact h
  · rename_i bs v
    rw [Format.fillBytes, escapes_map, Format.escapes_fill]
    refine ⟨.bytes, fun h => ?_⟩
    cases h with
    | mixed _ h => exact absurd h (not_mixed_of_isSequence (.inl rfl))
    | bytes h => exact h
  · rename_i hstr hbytes
    rw [Numeric.mod, escapes_arithmetic fun x y => not_escapes_divided, or_iff_right]
    · refine ⟨.mixed nofun, fun h => ?_⟩
      cases h with
      | mixed _ h => exact h
      | text => exact (hstr _ rfl).elim
      | bytes => exact (hbytes _ rfl).elim
    · rintro ⟨m, n, -, -, h⟩
      exact not_escapes_divided h

end Value

/-- Joining output texts fails for the number of digits only. -/
theorem concat_eq_error {l r : Value} {f : Fault} (h : BinaryOp.concat.result memory l r = .error f) :
    f = .value .digitsWritten := by
  rcases bind_eq_error.1 h with h | ⟨left, -, h⟩
  · exact Value.outputText_eq_error h
  · rcases bind_eq_error.1 h with h | ⟨right, -, h⟩
    · exact Value.outputText_eq_error h
    · cases h

theorem fails_concat (memory : Nat) (l r : Value) : Fails (BinaryOp.concat.result memory l r) ↔ l.Unwritten ∨ r.Unwritten := by
  rw [BinaryOp.result, fails_bind_iff fun _ => fails_bind_iff fun _ => iff_of_false (not_fails_pure _) id, or_false,
    Value.fails_outputText, Value.fails_outputText]

/-- The faults of an operator that are not described are those of operands beyond the range of its result. -/
theorem escapes_result (op : BinaryOp) (a b : Value) : Escapes (op.result memory a b) ↔ Overflows memory op a b := by
  cases op with
  | add => exact a.escapes_add b
  | sub => exact a.escapes_sub b
  | mul => exact a.escapes_mul b
  | div => exact a.escapes_div b
  | floorDiv => exact a.escapes_floorDiv b
  | mod => exact a.escapes_mod b
  | concat =>
    refine iff_of_false (not_escapes_of_written fun _ => concat_eq_error) fun h => ?_
    cases h with
    | mixed hop => exact hop rfl

/-! ## Comparisons -/

namespace Value

/-- A fault is not about the types of the operands. -/
def Slips {α : Type} (r : Except Fault α) : Prop :=
  ∃ f, r = .error f ∧ ∀ p, f ≠ .type p

theorem orderAtoms_eq_error {op : OrderOp} {a b : Value} {f : Fault} (h : orderAtoms op a b = .error f) :
    ∃ p, f = .type p := by
  unfold orderAtoms at h
  split at h
  · cases h
  · cases h
  · cases h
    exact ⟨_, rfl⟩
  · split at h <;> cases h
    exact ⟨_, rfl⟩

/-- An order of values fails for their types only. -/
theorem ordered_eq_error {op : OrderOp} {f : Fault} (a b : Value) : ordered op a b = .error f → ∃ p, f = .type p := by
  refine ordered.induct_unfolding op (fun _ _ r => r = .error f → ∃ p, f = .type p)
    (fun _ _ r => r = .error f → ∃ p, f = .type p) ?lists ?tuples ?atoms ?same ?different ?done ?shorter ?longer a b
  case lists => exact fun _ _ ih => ih
  case tuples => exact fun _ _ ih => ih
  case atoms => exact fun a b _ _ => orderAtoms_eq_error
  case same => exact fun _ _ _ _ _ ih => ih
  case different => exact fun _ _ _ _ _ ih => ih
  case done => exact fun h => nomatch h
  case shorter => exact fun _ _ h => nomatch h
  case longer => exact fun _ _ h => nomatch h

/-- A byte string is asked for a number that is no byte, or a foreign object for a value. -/
inductive Refuses : Value → Value → Prop
  | byte {bs : List UInt8} {v : Value} {n : Int} (hv : v.whole? = some n) (hn : n < 0 ∨ 256 ≤ n) : Refuses (.bytes bs) v
  | faulty {mark : Mark} {className text : String} {v : Value} : Refuses (.faulty mark className text) v

theorem not_slips_type {α : Type} (p : TypeProblem) : ¬ Slips (.error (.type p) : Except Fault α) := by
  rintro ⟨f, hf, hp⟩
  cases hf
  exact hp p rfl

theorem slips_contains (container v : Value) : Slips (container.contains v) ↔ container.Refuses v := by
  unfold contains
  split
  case h_1 s =>
    split
    · exact iff_of_false nofun nofun
    · exact iff_of_false (not_slips_type _) nofun
  case h_2 bs =>
    split
    · exact iff_of_false nofun fun h => by cases h with | byte hv => cases hv
    · split
      · rename_i n hn
        have hrefuses : (bytes bs).Refuses v ↔ n < 0 ∨ 256 ≤ n := by
          refine ⟨fun h => ?_, .byte hn⟩
          cases h with
          | byte hv hn' =>
            rw [hn] at hv
            cases hv
            exact hn'
        rw [hrefuses]
        split
        · rename_i hbyte
          simp only [Bool.and_eq_true, decide_eq_true_eq] at hbyte
          exact iff_of_false nofun (by omega)
        · rename_i hbyte
          simp only [Bool.and_eq_true, decide_eq_true_eq] at hbyte
          exact iff_of_true ⟨_, rfl, nofun⟩ (by omega)
      · rename_i hn
        exact iff_of_false (not_slips_type _) fun h => by cases h with | byte hv => rw [hn] at hv; cases hv
  case h_3 => exact iff_of_false nofun nofun
  case h_4 => exact iff_of_false nofun nofun
  case h_5 entries =>
    refine iff_of_false ?_ nofun
    rintro ⟨f, hf, hp⟩
    rcases bind_eq_error.1 hf with hf | ⟨-, -, hf⟩
    · unfold checkKey at hf
      split at hf <;> cases hf
      exact hp _ rfl
    · cases hf
  case h_6 => exact iff_of_true ⟨_, rfl, nofun⟩ .faulty
  case h_7 hbytes _ _ _ hfaulty =>
    refine iff_of_false (not_slips_type _) fun h => ?_
    cases h with
    | byte => exact hbytes _ rfl
    | faulty => exact hfaulty _ _ _ rfl

end Value

end TemplateEngine

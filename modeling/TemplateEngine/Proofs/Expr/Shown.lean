/-
What is read can be shown: the integers of a source have no more digits than are written.
-/
import Mathlib.Data.Nat.Digits.Defs
import TemplateEngine.Expr.Printer
import TemplateEngine.Proofs.Expr.Reading

namespace TemplateEngine

open ExprGrammar

namespace Text

theorem digitValue_lt (c : Char) : (digitValue? c).getD 0 < 10 := by
  unfold digitValue?
  split
  · rename_i h
    rw [Char.isDigit, Bool.and_eq_true, decide_eq_true_eq, decide_eq_true_eq] at h
    have hnine : c.toNat ≤ 57 := UInt32.le_iff_toNat_le.1 h.2
    rw [Option.getD_some]
    omega
  · split
    · decide
    · cases hz : wideZeros.find? fun z => z ≤ c.toNat && c.toNat < z + 10 with
      | none => exact Nat.zero_lt_succ 9
      | some z =>
        have hrow := List.find?_some hz
        rw [Bool.and_eq_true, decide_eq_true_eq, decide_eq_true_eq] at hrow
        rw [Option.map_some, Option.getD_some]
        omega

/-- Digits write a number of no more digits. -/
theorem digitsValue_lt (cs : List Char) : digitsValue cs < 10 ^ cs.length := by
  -- for whatever number the digits before them write
  suffices h : ∀ n, cs.foldl (fun n c => 10 * n + (digitValue? c).getD 0) n < (n + 1) * 10 ^ cs.length by
    simpa [digitsValue] using h 0
  induction cs with
  | nil => intro n; simp
  | cons c cs ih =>
    intro n
    have hc := digitValue_lt c
    calc cs.foldl _ (10 * n + (digitValue? c).getD 0)
        < (10 * n + (digitValue? c).getD 0 + 1) * 10 ^ cs.length := ih _
      _ ≤ ((n + 1) * 10) * 10 ^ cs.length := Nat.mul_le_mul_right _ (by omega)
      _ = (n + 1) * 10 ^ (c :: cs).length := by rw [Nat.mul_assoc, List.length_cons, Nat.pow_succ']

end Text

namespace ExprGrammar

variable {d : Dialect}

theorem isShown_numberValue {text : String} (h : Readable text) : (numberValue text).isShown = true := by
  unfold numberValue
  split
  · rfl
  · rename_i hwhole
    have hlength : text.toList.length ≤ Number.digitLimit := h.resolve_left hwhole
    have hdigits : (Nat.toDigits 10 (Text.digitsValue text.toList)).length ≤ Number.digitLimit :=
      Nat.toDigits_length _ _ _ (by decide) <|
        Nat.lt_of_lt_of_le (Text.digitsValue_lt _) (Nat.pow_le_pow_right (by decide) hlength)
    rw [Literal.isShown, Number.intText?, Int.natAbs_natCast, if_neg (Nat.not_lt.2 hdigits)]
    rfl

theorem isShown_constant {k : Keyword} {l : Literal} (h : Constant k l) : l.isShown = true := by
  cases h <;> rfl

theorem Operator.isShown {l : Level} {kinds : List ExprTokenKind} {join : Expr → Expr → Expr} (h : Operator l kinds join)
    {left right : Expr} (hl : left.isShown = true) (hr : right.isShown = true) : (join left right).isShown = true := by
  cases h <;> exact Bool.and_eq_true_iff.2 ⟨hl, hr⟩

theorem Front.isShown {l : Level} {k : ExprTokenKind} {operand e : Expr} (h : Front l k operand e)
    (ho : operand.isShown = true) : e.isShown = true := by
  cases h <;> exact ho

mutual

theorem Derives.isShown {l : Level} {ts : List ExprToken} {e : Expr} : Derives d l ts e → e.isShown = true
  | .disjunction h => h.isShown
  | .conditional hb _ hc _ ho => by simp [Expr.isShown, hb.isShown, hc.isShown, ho.isShown]
  | .chain _ h hr => hr.isShown h.isShown
  | .comparison h => h.isShown
  | .postfixed h => h.isShown
  | .front ht h => ht.isShown h.isShown
  | .suffixes h hs => hs.isShown h.isShown
  | .number _ hr => isShown_numberValue hr
  | .str _ => rfl
  | .constant _ hk => isShown_constant hk
  | .name _ => rfl
  | .group _ h _ => h.isShown
  | .list _ h _ => h.allShown
  | .dict _ h _ => h.allShown

theorem Chain.isShown {l : Level} {left : Expr} {ts : List ExprToken} {e : Expr} :
    Chain d l left ts e → left.isShown = true → e.isShown = true
  | .nil, hl => hl
  | .cons _ ho h hr, hl => hr.isShown (ho.isShown hl h.isShown)

theorem Suffixes.isShown {target : Expr} {ts : List ExprToken} {e : Expr} :
    Suffixes d target ts e → target.isShown = true → e.isShown = true
  | .nil, ht => ht
  | .member _ _ hs, ht => hs.isShown ht
  | .item _ h _ hs, ht => hs.isShown (by simp [Expr.isShown, ht, h.isShown])
  | .call _ h _ hs, ht => hs.isShown (by simp [Expr.isShown, ht, h.allShown])

theorem Pipeline.isShown {withArgs : Bool} {ts : List ExprToken} {e : Expr} : Pipeline d withArgs ts e → e.isShown = true
  | .mk h hs => hs.isShown h.isShown

theorem Stages.isShown {before after : Bool} {value : Expr} {ts : List ExprToken} {e : Expr} :
    Stages d before value ts after e → value.isShown = true → e.isShown = true
  | .nil, hv => hv
  | .plain _ _ hs, hv => hs.isShown (by simp [Expr.isShown, hv, Expr.allShown])
  | .withArgs _ _ _ h hs, hv => hs.isShown (by simp [Expr.isShown, hv, h.allShown])

theorem Arguments.allShown {ts : List ExprToken} {es : List Expr} : Arguments d ts es → Expr.allShown es = true
  | .one h => by simp [Expr.allShown, h.isShown]
  | .cons h _ hr => by simp [Expr.allShown, h.isShown, hr.allShown]

theorem Items.allShown {last : Bool} {ts : List ExprToken} {es : List Expr} : Items d last ts es → Expr.allShown es = true
  | .one h => by simp [Expr.allShown, h.isShown]
  | .cons h _ _ hr => by simp [Expr.allShown, h.isShown, hr.allShown]

theorem Elements.allShown {ts : List ExprToken} {es : List Expr} : Elements d ts es → Expr.allShown es = true
  | .nil => rfl
  | .items h => h.allShown
  | .trailing h _ _ => h.allShown

theorem Entries.allShown {last : Bool} {ts : List ExprToken} {es : List (Expr × Expr)} :
    Entries d last ts es → Expr.allEntriesShown es = true
  | .one hk _ hv => by simp [Expr.allEntriesShown, hk.isShown, hv.isShown]
  | .cons hk _ hv _ _ hr => by simp [Expr.allEntriesShown, hk.isShown, hv.isShown, hr.allShown]

theorem Pairs.allShown {ts : List ExprToken} {es : List (Expr × Expr)} : Pairs d ts es → Expr.allEntriesShown es = true
  | .nil => rfl
  | .entries h => h.allShown
  | .trailing h _ _ => h.allShown

end

end ExprGrammar

/-- Every expression that is read can be shown. -/
theorem Expr.isShown_of_read {source : String} {e : Expr} (h : Expr.read source = .ok e) : e.isShown = true := by
  obtain ⟨_, _, _, _, hp⟩ := Expr.exists_spelled_of_read h
  exact hp.isShown

end TemplateEngine

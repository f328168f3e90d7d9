/-
Formats that go beyond the range of a result. A format is filled from the left, so that it ends with a fault that no
operator describes exactly where the pieces before a directive are filled and the directive goes beyond some range: its
key is not there, a star takes too great a number, or its conversion has no room for the value.
-/
import TemplateEngine.Format.Fill
import TemplateEngine.Proofs.Value.Printer

namespace TemplateEngine

/-- A fault that no operator describes: a number beyond the range of the result, or one of foreign code. -/
def Fault.isUncaught : Fault → Bool
  | overflow _ => true
  | foreign _ _ => true
  | _ => false

/-- A computation ends with a fault that no operator describes. -/
def Escapes {α : Type} (r : Except Fault α) : Prop :=
  ∃ f, r = .error f ∧ f.isUncaught = true

section

variable {α β : Type}

@[simp] theorem not_escapes_ok (a : α) : ¬ Escapes (.ok a) :=
  nofun

@[simp] theorem not_escapes_pure (a : α) : ¬ Escapes (pure a) :=
  nofun

@[simp] theorem escapes_error {f : Fault} : Escapes (.error f : Except Fault α) ↔ f.isUncaught = true := by
  simp [Escapes]

theorem escapes_bind {r : Except Fault α} {k : α → Except Fault β} :
    Escapes (r >>= k) ↔ Escapes r ∨ ∃ a, r = .ok a ∧ Escapes (k a) := by
  cases r <;> simp [Escapes]

theorem escapes_map {r : Except Fault α} {g : α → β} : Escapes (g <$> r) ↔ Escapes r := by
  cases r with
  | ok a => exact iff_of_false (not_escapes_ok _) (not_escapes_ok _)
  | error f => exact escapes_error.trans escapes_error.symm

/-- What fails for the number of its digits only is described. -/
theorem not_escapes_of_written {r : Except Fault α} (h : ∀ f, r = .error f → f = .value .digitsWritten) : ¬ Escapes r := by
  rintro ⟨f, hr, hf⟩
  rw [h f hr] at hf
  cases hf

end

open Number

namespace Value

/-- An infinite floating point number. -/
def IsInfinite (v : Value) : Prop :=
  ∃ x negative, v.numeric? = some (.float x) ∧ denotation x = .infinite negative

/-- An integer that no finite floating point number is near to. -/
def BeyondFloats (v : Value) : Prop :=
  ∃ n, v.numeric? = some (.int n) ∧ floatOfInt? n = Option.none

/-- The whole part of a number. -/
def WholePart (v : Value) (n : Int) : Prop :=
  ∃ m, v.numeric? = some m ∧ m.toInt = .ok n

theorem escapes_toFloat {n : Numeric} : Escapes n.toFloat ↔ ∃ i, n = .int i ∧ floatOfInt? i = Option.none := by
  cases n with
  | float x => simp [Numeric.toFloat]
  | int i => cases h : floatOfInt? i <;> simp [Numeric.toFloat, h, Fault.isUncaught]

theorem escapes_toInt {n : Numeric} :
    Escapes n.toInt ↔ ∃ x negative, n = .float x ∧ denotation x = .infinite negative := by
  cases n with
  | int n => simp [Numeric.toInt]
  | float x => cases hx : denotation x <;> simp [Numeric.toInt, hx, Fault.isUncaught]

end Value

namespace Format

variable {kind : Kind} {memory places : Nat} {flags : Flags} {p : Option Nat} {c : Char} {v : Value}
  {source : Option Value} {values : List Value} {d : Directive}

/-! ## Conversions -/

/-- A conversion has no room for a value: the value is too great for it, or the precision for the memory. -/
inductive Conversion.Beyond (kind : Kind) (memory : Nat) (precision : Option Nat) (v : Value) : Conversion → Prop
  | infinite (h : v.IsInfinite) : Beyond kind memory precision v .whole
  | precise {n : Int} (h : v.WholePart n) (hp : greatestPrecision < precision.getD 0) : Beyond kind memory precision v .whole
  | zeros {n : Int} {ds : List Char} (h : v.WholePart n) (hds : wholeDigits n = .ok ds) (hm : memory < precision.getD 0) :
      Beyond kind memory precision v .whole
  | based {base : Nat} {mark : Char} {n : Int} (h : v.whole? = some n)
      (hp : greatestPrecision < precision.getD 0 ∨ memory < precision.getD 0) :
      Beyond kind memory precision v (.based base mark)
  | float {form : PlacedForm} {upper : Bool} (hk : kind = .text) (h : v.BeyondFloats) :
      Beyond kind memory precision v (.float form upper)
  | places {form : PlacedForm} {upper : Bool} {x : Float} (h : kind.floatOf v = .ok x) (hm : memory < precision.getD 6) :
      Beyond kind memory precision v (.float form upper)
  | char {n : Int} (hs : kind.single? v = none) (h : v.whole? = some n) (hn : n < 0 ∨ kind.characters ≤ n) :
      Beyond kind memory precision v .char

theorem not_escapes_textForm (form : TextForm) (v : Value) : ¬ Escapes (form.write v) := by
  cases form with
  | plain => exact not_escapes_of_written fun _ => Value.plainText_eq_error
  | quoted => exact not_escapes_of_written fun _ => Value.quotedForm_eq_error
  | ascii => exact mt escapes_map.1 (not_escapes_of_written fun _ => Value.quotedForm_eq_error)
  | raw =>
    unfold TextForm.write
    dsimp only
    split <;> simp [Fault.isUncaught]

theorem not_escapes_wholeDigits (n : Int) : ¬ Escapes (wholeDigits n) := by
  unfold wholeDigits
  split <;> simp [Fault.isUncaught]

theorem escapes_integerWritten {mark : List Char} {n : Int} {digits : Except Fault (List Char)} (hd : ¬ Escapes digits) :
    Escapes (integerWritten memory places mark n digits) ↔
      greatestPrecision < places ∨ (∃ ds, digits = .ok ds) ∧ memory < places := by
  unfold integerWritten
  split
  · rename_i hp
    exact iff_of_true (escapes_error.2 rfl) (.inl hp)
  · rename_i hp
    rw [escapes_bind, or_iff_right hd, or_iff_right hp, ← exists_and_right]
    refine exists_congr fun ds => and_congr_right fun _ => ?_
    split <;> simp [*, Fault.isUncaught]

theorem escapes_floatOf : Escapes (kind.floatOf v) ↔ kind = .text ∧ v.BeyondFloats := by
  cases kind with
  | text =>
    cases hv : v.numeric? with
    | none => simp [Kind.floatOf, Value.BeyondFloats, hv, Fault.isUncaught]
    | some n => simp [Kind.floatOf, Value.BeyondFloats, hv, Value.escapes_toFloat]
  | bytes =>
    cases hv : v.numeric? with
    | none => simp [Kind.floatOf, hv, Fault.isUncaught]
    | some n => cases hn : n.toFloat <;> simp [Kind.floatOf, hv, hn, Fault.isUncaught]

theorem escapes_charOf : Escapes (kind.charOf v) ↔
    kind.single? v = none ∧ ∃ n, v.whole? = some n ∧ (n < 0 ∨ kind.characters ≤ n) := by
  unfold Kind.charOf
  split
  · rename_i c hs
    simp [hs]
  · rename_i n hs hn
    have hrange : ¬ (0 ≤ n ∧ n < kind.characters) ↔ n < 0 ∨ kind.characters ≤ n := by omega
    split
    · rename_i hin
      simp only [Bool.and_eq_true, decide_eq_true_eq] at hin
      simpa [hs, hn] using fun h => hrange.2 h hin
    · rename_i hout
      simp only [Bool.and_eq_true, decide_eq_true_eq] at hout
      simpa [hs, hn, Fault.isUncaught] using hrange.1 hout
  · rename_i hs hn
    cases kind <;> simp [hs, hn, Kind.noCharacter, Fault.isUncaught]

namespace Conversion

variable {base : Nat} {mark : Char} {form : PlacedForm} {upper : Bool}

theorem beyond_whole : whole.Beyond kind memory p v ↔ v.IsInfinite ∨ ∃ n, v.WholePart n ∧
    (greatestPrecision < p.getD 0 ∨ (∃ ds, wholeDigits n = .ok ds) ∧ memory < p.getD 0) := by
  constructor
  · rintro (h | ⟨h, hp⟩ | ⟨h, hds, hm⟩)
    · exact .inl h
    · exact .inr ⟨_, h, .inl hp⟩
    · exact .inr ⟨_, h, .inr ⟨⟨_, hds⟩, hm⟩⟩
  · rintro (h | ⟨n, h, hp | ⟨⟨ds, hds⟩, hm⟩⟩)
    · exact .infinite h
    · exact .precise h hp
    · exact .zeros h hds hm

theorem beyond_based : (based base mark).Beyond kind memory p v ↔
    ∃ n, v.whole? = some n ∧ (greatestPrecision < p.getD 0 ∨ memory < p.getD 0) :=
  ⟨fun | .based h hp => ⟨_, h, hp⟩, fun ⟨_, h, hp⟩ => .based h hp⟩

theorem beyond_float : (float form upper).Beyond kind memory p v ↔
    (kind = .text ∧ v.BeyondFloats) ∨ ∃ x, kind.floatOf v = .ok x ∧ memory < p.getD 6 := by
  constructor
  · rintro (_ | _ | _ | _ | ⟨hk, h⟩ | ⟨h, hm⟩)
    · exact .inl ⟨hk, h⟩
    · exact .inr ⟨_, h, hm⟩
  · rintro (⟨hk, h⟩ | ⟨x, h, hm⟩)
    · exact .float hk h
    · exact .places h hm

theorem beyond_char : char.Beyond kind memory p v ↔
    kind.single? v = none ∧ ∃ n, v.whole? = some n ∧ (n < 0 ∨ kind.characters ≤ n) :=
  ⟨fun | .char hs h hn => ⟨hs, _, h, hn⟩, fun ⟨hs, _, h, hn⟩ => .char hs h hn⟩

end Conversion

theorem escapes_write (conversion : Conversion) :
    Escapes (conversion.write kind memory flags p c v) ↔ conversion.Beyond kind memory p v := by
  cases conversion with
  | text form =>
    rw [Conversion.write, escapes_bind, or_iff_right (not_escapes_textForm form v)]
    exact iff_of_false (fun ⟨_, _, h⟩ => not_escapes_pure _ h) nofun
  | whole =>
    rw [Conversion.beyond_whole, Conversion.write]
    split
    · rename_i hv
      simp [Value.IsInfinite, Value.WholePart, hv, Fault.isUncaught]
    · rename_i m hv
      rw [escapes_bind, Value.escapes_toInt]
      simp [Value.IsInfinite, Value.WholePart, hv, escapes_integerWritten (not_escapes_wholeDigits _)]
  | based base mark =>
    rw [Conversion.beyond_based, Conversion.write]
    split
    · rename_i hv
      simp [hv, Fault.isUncaught]
    · rename_i n hv
      simp [hv, escapes_integerWritten (not_escapes_ok _)]
  | float form upper =>
    rw [Conversion.beyond_float, Conversion.write, escapes_bind, escapes_floatOf]
    refine or_congr_right (exists_congr fun x => and_congr_right fun _ => ?_)
    split <;> simp [*, Fault.isUncaught]
  | char =>
    rw [Conversion.beyond_char, Conversion.write, escapes_bind, escapes_charOf]
    exact or_iff_left fun ⟨_, _, h⟩ => not_escapes_pure _ h

/-! ## Directives -/

/-- A mapping has no item for a key in a format, or is an object of foreign code. -/
inductive Withholds (kind : Kind) (key : List Char) : Value → Prop
  | missing {entries : List (Value × Value)} (h : valueOfKey? entries (kind.key key) = none) :
      Withholds kind key (.dict entries)
  | faulty {mark : Mark} {className text : String} : Withholds kind key (.faulty mark className text)

namespace Directive

/-- What a directive takes in front of the value it writes: the width, the precision, and the values after both. -/
def Takes (kind : Kind) (source : Option Value) (values : List Value) (d : Directive) (width precision : Option Int)
    (left : List Value) : Prop :=
  ∃ own rest, d.supply kind source values = .ok own ∧ readMeasure widthBound d.width own = .ok (width, rest) ∧
    readMeasure kind.precisionBound d.precision rest = .ok (precision, left)

/-- A directive that took its measures has no room for the next value. -/
inductive Overruns (kind : Kind) (memory : Nat) (d : Directive) (width precision : Option Int) : List Value → Prop
  /-- The message for the character of the conversion cannot show it. -/
  | unknown {c : Char} {v : Value} {left : List Value} (hc : d.conversion = some c) (h : kind.conversion? c = none)
      (hk : kind = .bytes) (hb : 128 ≤ c.toNat) (hd : d.endsInDigits = false) : Overruns kind memory d width precision (v :: left)
  | conversion {c : Char} {v : Value} {left : List Value} {conversion : Conversion} (hc : d.conversion = some c)
      (h : kind.conversion? c = some conversion) (hv : conversion.Beyond kind memory (precision.map Int.toNat) v) :
      Overruns kind memory d width precision (v :: left)
  | wide {c : Char} {v : Value} {left : List Value} {conversion : Conversion} {written : Written}
      (hc : d.conversion = some c) (h : kind.conversion? c = some conversion)
      (hv : conversion.write kind memory d.flags (precision.map Int.toNat) c v = .ok written)
      (hw : memory < (width.getD 0).natAbs) : Overruns kind memory d width precision (v :: left)

/-- A directive goes beyond some range with the values that are there for it. -/
inductive Beyond (kind : Kind) (memory : Nat) (source : Option Value) (values : List Value) (d : Directive) : Prop
  | key {key : List Char} {mapping : Value} (hd : d.key = .named key) (hs : source = some mapping)
      (h : Withholds kind key mapping)
  | width {v : Value} {left : List Value} {n : Int} (hs : d.supply kind source values = .ok (v :: left))
      (hd : d.width = some .star) (hv : v.whole? = some n) (hn : widthBound.admits n = false)
  | precision {own left : List Value} {width : Option Int} {v : Value} {n : Int} (hs : d.supply kind source values = .ok own)
      (hw : readMeasure widthBound d.width own = .ok (width, v :: left)) (hd : d.precision = some .star)
      (hv : v.whole? = some n) (hn : kind.precisionBound.admits n = false)
  | value {width precision : Option Int} {left : List Value} (ht : d.Takes kind source values width precision left)
      (h : d.Overruns kind memory width precision left)

end Directive

/-- A key in a format may be one of a mapping. -/
theorem checkKey_key (kind : Kind) (key : List Char) : (kind.key key).checkKey = .ok () := by
  cases kind <;> rfl

theorem quotedForm_key (kind : Kind) (key : List Char) : ∃ shown, (kind.key key).quotedForm = .ok shown := by
  cases kind <;> exact ⟨_, rfl⟩

theorem escapes_supply : Escapes (d.supply kind source values) ↔
    ∃ key mapping, d.key = .named key ∧ source = some mapping ∧ Withholds kind key mapping := by
  unfold Directive.supply
  split
  · simp [*]
  · simp [Fault.isUncaught]
  · simp [*, Fault.isUncaught]
  · rename_i key mapping hkey
    have hone : (∃ key' mapping', d.key = .named key' ∧ some mapping = some mapping' ∧ Withholds kind key' mapping') ↔
        Withholds kind key mapping := by
      simp [hkey]
    have hno (h : ¬ ∃ entries, mapping = .dict entries) (h' : ¬ ∃ mark name text, mapping = .faulty mark name text) :
        ¬ Withholds kind key mapping := by
      rintro (h'' | _)
      · exact h ⟨_, rfl⟩
      · exact h' ⟨_, _, _, rfl⟩
    rw [hone]
    cases mapping with
    | dict entries =>
      obtain ⟨shown, hshown⟩ := quotedForm_key kind key
      have hwithholds : Withholds kind key (.dict entries) ↔ valueOfKey? entries (kind.key key) = none :=
        ⟨fun | .missing h => h, .missing⟩
      rw [hwithholds]
      cases hv : valueOfKey? entries (kind.key key) <;>
        simp [Value.readItem, checkKey_key, hv, hshown, Fault.isUncaught]
    | faulty mark name text => simp [Value.readItem, Withholds.faulty, Fault.isUncaught]
    | _ =>
      refine iff_of_false ?_ (hno (by simp) (by simp))
      cases kind <;> simp [Value.readItem, Kind.key, Value.whole?, Fault.isUncaught]

theorem escapes_readMeasure {bound : Bound} {m : Option Measure} : Escapes (readMeasure bound m values) ↔
    ∃ v left n, m = some .star ∧ values = v :: left ∧ v.whole? = some n ∧ bound.admits n = false := by
  unfold readMeasure
  split
  · simp
  · dsimp only
    split <;> simp [Fault.isUncaught]
  · simp [Fault.isUncaught]
  · rename_i v left
    cases hv : v.whole? with
    | none => simp [hv, Fault.isUncaught]
    | some n => cases hn : bound.admits n <;> simp [hv, hn, Fault.isUncaught]

section

variable {width precision : Option Int} {left : List Value} (hc : d.conversion = some c)

include hc

/-- For an unknown conversion there is no room only in the message that shows it. -/
theorem overruns_unknown (h : kind.conversion? c = none) : d.Overruns kind memory width precision (v :: left) ↔
    kind = .bytes ∧ 128 ≤ c.toNat ∧ d.endsInDigits = false := by
  constructor
  · rintro (⟨hc', -, hk, hb, hd⟩ | ⟨hc', h', -⟩ | ⟨hc', h', -⟩)
    all_goals obtain rfl := Option.some.inj (hc.symm.trans hc')
    · exact ⟨hk, hb, hd⟩
    · cases h.symm.trans h'
    · cases h.symm.trans h'
  · exact fun ⟨hk, hb, hd⟩ => .unknown hc h hk hb hd

/-- A known conversion has no room for the value, or the width has none for what it wrote. -/
theorem overruns_known {conversion : Conversion} (h : kind.conversion? c = some conversion) :
    d.Overruns kind memory width precision (v :: left) ↔ conversion.Beyond kind memory (precision.map Int.toNat) v ∨
      ∃ written, conversion.write kind memory d.flags (precision.map Int.toNat) c v = .ok written ∧
        memory < (width.getD 0).natAbs := by
  constructor
  · rintro (⟨hc', h', -⟩ | ⟨hc', h', hv⟩ | ⟨hc', h', hv, hw⟩)
    all_goals obtain rfl := Option.some.inj (hc.symm.trans hc')
    · cases h.symm.trans h'
    · obtain rfl := Option.some.inj (h.symm.trans h')
      exact .inl hv
    · obtain rfl := Option.some.inj (h.symm.trans h')
      exact .inr ⟨_, hv, hw⟩
  · rintro (hv | ⟨written, hv, hw⟩)
    · exact .conversion hc h hv
    · exact .wide hc h hv hw

end

theorem isUncaught_unknown : (d.unknown kind c).isUncaught = true ↔
    kind = .bytes ∧ 128 ≤ c.toNat ∧ d.endsInDigits = false := by
  cases kind with
  | text => simp [Directive.unknown, Fault.isUncaught]
  | bytes =>
    have hshown : ¬ (c.toNat < 128 ∨ d.endsInDigits = true) ↔ 128 ≤ c.toNat ∧ d.endsInDigits = false := by
      simp
    unfold Directive.unknown
    dsimp only
    split
    · rename_i h
      exact iff_of_false nofun fun hd => hshown.2 hd.2 (by simpa using h)
    · rename_i h
      exact iff_of_true rfl ⟨rfl, hshown.1 (by simpa using h)⟩

theorem escapes_directive_write {width precision : Option Int} :
    Escapes (d.write kind memory width precision values) ↔ d.Overruns kind memory width precision values := by
  unfold Directive.write
  split
  · rename_i hc
    refine iff_of_false (by simp [Fault.isUncaught]) ?_
    rintro (⟨hc', -⟩ | ⟨hc', -⟩ | ⟨hc', -⟩) <;> simp [hc] at hc'
  · exact iff_of_false (by simp [Fault.isUncaught]) nofun
  · rename_i c v left hc
    split
    · rename_i hnone
      rw [overruns_unknown hc hnone, escapes_error, isUncaught_unknown]
    · rename_i conversion hconv
      rw [overruns_known hc hconv, escapes_bind, escapes_write]
      refine or_congr_right (exists_congr fun written => and_congr_right fun _ => ?_)
      dsimp only
      split <;> simp [*, Fault.isUncaught]

theorem escapes_directive_fill :
    Escapes (d.fill kind memory source values) ↔ d.Beyond kind memory source values := by
  simp only [Directive.fill, escapes_bind, escapes_supply, escapes_readMeasure, escapes_directive_write]
  constructor
  · rintro (⟨key, mapping, hd, hs, h⟩ | ⟨own, hs, ⟨v, left, n, hd, rfl, hv, hn⟩ | ⟨⟨width, rest⟩, hw, h⟩⟩)
    · exact .key hd hs h
    · exact .width hs hd hv hn
    · rcases h with ⟨v, left, n, hd, rfl, hv, hn⟩ | ⟨⟨precision, left⟩, hp, h⟩
      · exact .precision hs hw hd hv hn
      · exact .value ⟨own, rest, hs, hw, hp⟩ h
  · rintro (⟨hd, hs, h⟩ | ⟨hs, hd, hv, hn⟩ | ⟨hs, hw, hd, hv, hn⟩ | ⟨⟨own, rest, hs, hw, hp⟩, h⟩)
    · exact .inl ⟨_, _, hd, hs, h⟩
    · exact .inr ⟨_, hs, .inl ⟨_, _, _, hd, rfl, hv, hn⟩⟩
    · exact .inr ⟨_, hs, .inr ⟨_, hw, .inl ⟨_, _, _, hd, rfl, hv, hn⟩⟩⟩
    · exact .inr ⟨_, hs, .inr ⟨_, hw, .inr ⟨_, hp, h⟩⟩⟩

/-! ## Formats -/

/-- Pieces that are filled, with the values they leave. -/
def Fills (kind : Kind) (memory : Nat) (source : Option Value) (values left : List Value) (ps : List Piece) : Prop :=
  ∃ text, fillPieces kind memory source values ps = .ok (text, left)

/-- The pieces before a directive are filled, and the directive goes beyond some range with what they leave. -/
def Piece.Beyond (kind : Kind) (memory : Nat) (source : Option Value) (values : List Value) (ps : List Piece) : Prop :=
  ∃ before d after left, ps = before ++ .directive d :: after ∧ Fills kind memory source values left before ∧
    d.Beyond kind memory source left

theorem fills_nil {left : List Value} : Fills kind memory source values left [] ↔ left = values := by
  simp [Fills, fillPieces, eq_comm]

theorem fills_char {left : List Value} {ps : List Piece} :
    Fills kind memory source values left (.char c :: ps) ↔ Fills kind memory source values left ps := by
  constructor
  · rintro ⟨text, h⟩
    obtain ⟨⟨rest, left⟩, hrest, h⟩ := map_eq_ok.1 h
    cases h
    exact ⟨rest, hrest⟩
  · rintro ⟨rest, hrest⟩
    exact ⟨c :: rest, map_eq_ok.2 ⟨_, hrest, rfl⟩⟩

theorem fills_directive {left : List Value} {ps : List Piece} :
    Fills kind memory source values left (.directive d :: ps) ↔
      ∃ text rest, d.fill kind memory source values = .ok (text, rest) ∧ Fills kind memory source rest left ps := by
  constructor
  · rintro ⟨all, h⟩
    obtain ⟨⟨text, rest⟩, htext, h⟩ := bind_eq_ok.1 h
    obtain ⟨⟨behind, left⟩, hbehind, h⟩ := map_eq_ok.1 h
    cases h
    exact ⟨text, rest, htext, behind, hbehind⟩
  · rintro ⟨text, rest, htext, behind, hbehind⟩
    exact ⟨text ++ behind, bind_eq_ok.2 ⟨_, htext, map_eq_ok.2 ⟨_, hbehind, rfl⟩⟩⟩

/-- A list of pieces is split at a directive in front, or behind its first piece. -/
theorem beyond_cons {piece : Piece} {ps : List Piece} : Piece.Beyond kind memory source values (piece :: ps) ↔
    (∃ d, piece = .directive d ∧ d.Beyond kind memory source values) ∨
      ∃ before d after left, ps = before ++ .directive d :: after ∧
        Fills kind memory source values left (piece :: before) ∧ d.Beyond kind memory source left := by
  constructor
  · rintro ⟨before, d, after, left, heq, hfills, hd⟩
    cases before with
    | nil =>
      cases heq
      obtain rfl := fills_nil.1 hfills
      exact .inl ⟨d, rfl, hd⟩
    | cons first before =>
      cases heq
      exact .inr ⟨before, d, after, left, rfl, hfills, hd⟩
  · rintro (⟨d, rfl, hd⟩ | ⟨before, d, after, left, rfl, hfills, hd⟩)
    · exact ⟨[], d, ps, values, rfl, fills_nil.2 rfl, hd⟩
    · exact ⟨piece :: before, d, after, left, rfl, hfills, hd⟩

theorem escapes_fillPieces {ps : List Piece} :
    Escapes (fillPieces kind memory source values ps) ↔ Piece.Beyond kind memory source values ps := by
  induction ps generalizing values with
  | nil =>
    refine iff_of_false (not_escapes_ok _) ?_
    rintro ⟨before, d, after, left, heq, -⟩
    simp at heq
  | cons piece ps ih =>
    rw [beyond_cons]
    cases piece with
    | char c =>
      rw [fillPieces, escapes_map, ih]
      simp [fills_char, Piece.Beyond]
    | directive d =>
      rw [fillPieces, escapes_bind, escapes_directive_fill]
      simp only [escapes_map, ih, fills_directive, Piece.directive.injEq, exists_eq_left']
      refine or_congr_right ?_
      constructor
      · rintro ⟨⟨text, rest⟩, htext, before, e, after, left, heq, hfills, he⟩
        exact ⟨before, e, after, left, heq, ⟨text, rest, htext, hfills⟩, he⟩
      · rintro ⟨before, e, after, left, heq, ⟨text, rest, htext, hfills⟩, he⟩
        exact ⟨(text, rest), htext, before, e, after, left, heq, hfills, he⟩

/-- A format goes beyond some range with its argument. -/
def GoesBeyond (kind : Kind) (memory : Nat) (format : List Char) (v : Value) : Prop :=
  Piece.Beyond kind memory (kind.source v) (supplied v) (pieces format)

theorem escapes_fill {format : List Char} :
    Escapes (fill kind memory format v) ↔ GoesBeyond kind memory format v := by
  rw [fill, escapes_bind, escapes_fillPieces]
  refine or_iff_left ?_
  rintro ⟨⟨text, left⟩, -, h⟩
  dsimp only at h
  split at h
  · exact not_escapes_pure _ h
  · cases escapes_error.1 h

end Format

end TemplateEngine

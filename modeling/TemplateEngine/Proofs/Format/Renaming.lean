/-
Formats do not show marks: what is written for a value is written for it with other marks, and the values that are left
are left with these marks.
-/
import TemplateEngine.Proofs.Value.Renaming

namespace TemplateEngine.Format

open Value

variable (σ : Renaming) (kind : Kind) (memory : Nat)

/-! ## Conversions -/

@[simp] theorem write_form_rename (form : TextForm) (v : Value) : form.write (v.rename σ) = form.write v := by
  cases form with
  | plain => exact plainText_rename σ v
  | quoted => exact quotedForm_rename σ v
  | ascii => rw [TextForm.write, TextForm.write, quotedForm_rename]
  | raw => cases v <;> rfl

@[simp] theorem floatOf_rename (v : Value) : kind.floatOf (v.rename σ) = kind.floatOf v := by
  unfold Kind.floatOf
  rw [numeric?_rename, qualifiedTypeName_rename]

@[simp] theorem single?_rename (v : Value) : kind.single? (v.rename σ) = kind.single? v := by
  cases kind <;> cases v <;> rfl

@[simp] theorem charOf_rename (v : Value) : kind.charOf (v.rename σ) = kind.charOf v := by
  unfold Kind.charOf
  rw [single?_rename, whole?_rename]

@[simp] theorem write_rename (conversion : Conversion) (flags : Flags) (precision : Option Nat) (c : Char) (v : Value) :
    conversion.write kind memory flags precision c (v.rename σ) = conversion.write kind memory flags precision c v := by
  cases conversion <;>
    simp only [Conversion.write, write_form_rename, floatOf_rename, charOf_rename, numeric?_rename, whole?_rename,
      qualifiedTypeName_rename]

/-! ## Directives -/

/-- A text and the values that are left, with other marks. -/
abbrev renamedRest {α : Type} (r : α × List Value) : α × List Value :=
  r.map id (List.map (rename σ))

theorem rename_key (cs : List Char) : (kind.key cs).rename σ = kind.key cs := by
  cases kind <;> rfl

theorem source_rename (v : Value) : kind.source (v.rename σ) = (kind.source v).map (rename σ) := by
  cases kind <;> cases v <;> simp [Kind.source, Kind.isMapping]

theorem supplied_rename (v : Value) : supplied (v.rename σ) = (supplied v).map (rename σ) := by
  cases v <;> simp [supplied]

theorem readMeasure_rename (bound : Bound) (m : Option Measure) (values : List Value) :
    readMeasure bound m (values.map (rename σ)) = renamedRest σ <$> readMeasure bound m values := by
  cases m with
  | none => rfl
  | some m =>
    cases m with
    | digits ds =>
      rw [readMeasure, readMeasure]
      split_ifs <;> rfl
    | star =>
      cases values with
      | nil => rfl
      | cons v values =>
        rw [List.map_cons, readMeasure, readMeasure, whole?_rename]
        cases v.whole? with
        | none => rfl
        | some n =>
          dsimp only
          split_ifs <;> rfl

theorem supply_rename (source : Option Value) (values : List Value) (d : Directive) :
    d.supply kind (source.map (rename σ)) (values.map (rename σ)) = List.map (rename σ) <$> d.supply kind source values := by
  unfold Directive.supply
  cases d.key with
  | absent => rfl
  | incomplete => cases source <;> rfl
  | named key =>
    cases source with
    | none => rfl
    | some mapping =>
      have hread : (mapping.rename σ).readItem (kind.key key) = (mapping.readItem (kind.key key)).rename σ := by
        rw [← readItem_rename, rename_key]
      dsimp only [Option.map_some]
      rw [hread]
      cases mapping.readItem (kind.key key) with
      | found v => rfl
      | missing => cases (kind.key key).quotedForm <;> rfl
      | failed f => rfl

theorem directive_write_rename (width precision : Option Int) (values : List Value) (d : Directive) :
    d.write kind memory width precision (values.map (rename σ)) =
      renamedRest σ <$> d.write kind memory width precision values := by
  unfold Directive.write
  cases d.conversion with
  | none => rfl
  | some c =>
    cases values with
    | nil => rfl
    | cons v values =>
      rw [List.map_cons]
      dsimp only
      cases kind.conversion? c with
      | none => rfl
      | some conversion =>
        dsimp only
        rw [write_rename, map_bind]
        refine bind_congr fun written => ?_
        split_ifs <;> rfl

theorem directive_fill_rename (source : Option Value) (values : List Value) (d : Directive) :
    d.fill kind memory (source.map (rename σ)) (values.map (rename σ)) =
      renamedRest σ <$> d.fill kind memory source values := by
  unfold Directive.fill
  rw [supply_rename, bind_map_left, map_bind]
  refine bind_congr fun own => ?_
  rw [readMeasure_rename, bind_map_left, map_bind]
  refine bind_congr fun w => ?_
  dsimp only [renamedRest, Prod.map]
  rw [readMeasure_rename, bind_map_left, map_bind]
  refine bind_congr fun p => ?_
  exact directive_write_rename σ kind memory w.1 p.1 p.2 d

/-! ## Formats -/

theorem fillPieces_rename (source : Option Value) (values : List Value) (ps : List Piece) :
    fillPieces kind memory (source.map (rename σ)) (values.map (rename σ)) ps =
      renamedRest σ <$> fillPieces kind memory source values ps := by
  induction ps generalizing values with
  | nil => rfl
  | cons piece ps ih =>
    cases piece with
    | char c =>
      rw [fillPieces, fillPieces, ih, Functor.map_map, Functor.map_map]
      rfl
    | directive d =>
      rw [fillPieces, fillPieces, directive_fill_rename, bind_map_left, map_bind]
      refine bind_congr fun r => ?_
      dsimp only [renamedRest, Prod.map]
      rw [ih, Functor.map_map, Functor.map_map]
      rfl

theorem fill_rename (format : List Char) (v : Value) : fill kind memory format (v.rename σ) = fill kind memory format v := by
  unfold fill
  rw [source_rename, supplied_rename, fillPieces_rename, bind_map_left]
  refine bind_congr fun r => ?_
  dsimp only [renamedRest, Prod.map]
  rw [List.isEmpty_map, Option.isSome_map]
  rfl

theorem fillText_rename (format : String) (v : Value) :
    fillText memory format (v.rename σ) = rename σ <$> fillText memory format v := by
  rw [fillText, fillText, fill_rename, Functor.map_map]
  rfl

theorem fillBytes_rename (format : List UInt8) (v : Value) :
    fillBytes memory format (v.rename σ) = rename σ <$> fillBytes memory format v := by
  rw [fillBytes, fillBytes, fill_rename, Functor.map_map]
  rfl

end TemplateEngine.Format

/-
Other marks. Which marks the `nan`s of values have matters only as far as it tells them apart: an operation on values whose
marks are all changed at once has the same outcome with the marks changed.
-/
import Mathlib.Logic.Equiv.Basic
import TemplateEngine.Proofs.Result
import TemplateEngine.Proofs.Value.Printer
import TemplateEngine.Value.Conversion
import TemplateEngine.Value.Operators

namespace TemplateEngine

/-- A change of marks, which keeps different ones apart. -/
abbrev Renaming :=
  Equiv.Perm Mark

namespace Value

/-! ## Values with other marks -/

mutual

/-- A value with other marks for its `nan`s. -/
def rename (σ : Renaming) : Value → Value
  | nan m => nan (σ m)
  | list items => list (renameItems σ items)
  | tuple items => tuple (renameItems σ items)
  | dict entries => dict (renameEntries σ entries)
  | record fields => record (renameFields σ fields)
  | v => v

/-- Some values with other marks. -/
def renameItems (σ : Renaming) : List Value → List Value
  | [] => []
  | v :: vs => rename σ v :: renameItems σ vs

/-- Some entries with other marks. -/
def renameEntries (σ : Renaming) : List (Value × Value) → List (Value × Value)
  | [] => []
  | (k, v) :: es => (rename σ k, rename σ v) :: renameEntries σ es

/-- Some fields with other marks. -/
def renameFields (σ : Renaming) : List (String × Value) → List (String × Value)
  | [] => []
  | (n, v) :: fs => (n, rename σ v) :: renameFields σ fs

end

variable (σ : Renaming)

theorem renameItems_eq_map (vs : List Value) : renameItems σ vs = vs.map (rename σ) := by
  induction vs with
  | nil => rfl
  | cons v vs ih => rw [renameItems, ih, List.map_cons]

theorem renameEntries_eq_map (es : List (Value × Value)) :
    renameEntries σ es = es.map (Prod.map (rename σ) (rename σ)) := by
  induction es with
  | nil => rfl
  | cons e es ih => rw [renameEntries, ih, List.map_cons]; rfl

theorem renameFields_eq_map (fs : List (String × Value)) : renameFields σ fs = fs.map (Prod.map id (rename σ)) := by
  induction fs with
  | nil => rfl
  | cons f fs ih => rw [renameFields, ih, List.map_cons]; rfl

@[simp] theorem rename_list (vs : List Value) : (list vs).rename σ = list (vs.map (rename σ)) := by
  rw [rename, renameItems_eq_map]

@[simp] theorem rename_tuple (vs : List Value) : (tuple vs).rename σ = tuple (vs.map (rename σ)) := by
  rw [rename, renameItems_eq_map]

@[simp] theorem rename_dict (es : List (Value × Value)) :
    (dict es).rename σ = dict (es.map (Prod.map (rename σ) (rename σ))) := by
  rw [rename, renameEntries_eq_map]

@[simp] theorem rename_record (fs : List (String × Value)) : (record fs).rename σ = record (fs.map (Prod.map id (rename σ))) := by
  rw [rename, renameFields_eq_map]

@[simp] theorem rename_none : none.rename σ = none := rfl
@[simp] theorem rename_bool (b : Bool) : (bool b).rename σ = bool b := rfl
@[simp] theorem rename_int (n : Int) : (int n).rename σ = int n := rfl
@[simp] theorem rename_float (x : Float) : (float x).rename σ = float x := rfl
@[simp] theorem rename_nan (m : Mark) : (nan m).rename σ = nan (σ m) := rfl
@[simp] theorem rename_str (s : String) : (str s).rename σ = str s := rfl
@[simp] theorem rename_bytes (bs : List UInt8) : (bytes bs).rename σ = bytes bs := rfl
@[simp] theorem rename_callable (c : Callable) : (callable c).rename σ = callable c := rfl
@[simp] theorem rename_loop (i n : Nat) : (loop i n).rename σ = loop i n := rfl
@[simp] theorem rename_faulty (m : Mark) (c t : String) : (faulty m c t).rename σ = faulty m c t := rfl

/-! ## Kinds of values -/

@[simp] theorem typeName_rename (v : Value) : (v.rename σ).typeName = v.typeName := by
  cases v <;> rfl

@[simp] theorem qualifiedTypeName_rename (v : Value) : (v.rename σ).qualifiedTypeName = v.qualifiedTypeName := by
  cases v <;> rfl

@[simp] theorem truthy_rename (v : Value) : (v.rename σ).truthy = v.truthy := by
  cases v <;> simp [truthy]

@[simp] theorem numeric?_rename (v : Value) : (v.rename σ).numeric? = v.numeric? := by
  cases v <;> rfl

@[simp] theorem whole?_rename (v : Value) : (v.rename σ).whole? = v.whole? := by
  cases v <;> rfl

@[simp] theorem isSequence_rename (v : Value) : (v.rename σ).isSequence = v.isSequence := by
  cases v <;> rfl

@[simp] theorem rename_toValue (n : Numeric) : n.toValue.rename σ = n.toValue := by
  cases n <;> rfl

/-! ## Equality -/

@[simp] theorem sameNan_rename (a b : Value) : sameNan (a.rename σ) (b.rename σ) = sameNan a b := by
  cases a <;> cases b <;> first
  | rfl
  | simp [sameNan]

mutual

@[simp] theorem equal_rename : ∀ a b : Value, equal (a.rename σ) (b.rename σ) = equal a b
  | list xs, b => by
    cases b with
    | list ys => rw [rename, rename, equal, equal, sameItems_rename xs ys]
    | _ => simp only [rename, equal]; rfl
  | tuple xs, b => by
    cases b with
    | tuple ys => rw [rename, rename, equal, equal, sameItems_rename xs ys]
    | _ => simp only [rename, equal]; rfl
  | dict xs, b => by
    cases b with
    | dict ys =>
      rw [rename, rename, equal, equal, sameEntries_rename xs ys, renameEntries_eq_map, renameEntries_eq_map,
        List.length_map, List.length_map]
    | _ => simp only [rename, equal]; rfl
  | record xs, b => by
    cases b with
    | record ys =>
      rw [rename, rename, equal, equal, sameFields_rename xs ys, renameFields_eq_map, renameFields_eq_map,
        List.length_map, List.length_map]
    | _ => simp only [rename, equal]; rfl
  | none, b => by cases b <;> simp only [rename, equal] <;> rfl
  | bool _, b => by cases b <;> simp only [rename, equal] <;> rfl
  | int _, b => by cases b <;> simp only [rename, equal] <;> rfl
  | float _, b => by cases b <;> simp only [rename, equal] <;> rfl
  | nan _, b => by cases b <;> simp only [rename, equal] <;> rfl
  | str _, b => by cases b <;> simp only [rename, equal] <;> rfl
  | bytes _, b => by cases b <;> simp only [rename, equal] <;> rfl
  | callable _, b => by cases b <;> simp only [rename, equal] <;> rfl
  | loop _ _, b => by cases b <;> simp only [rename, equal] <;> rfl
  | faulty _ _ _, b => by cases b <;> simp only [rename, equal] <;> rfl

theorem sameItems_rename : ∀ xs ys : List Value, sameItems (renameItems σ xs) (renameItems σ ys) = sameItems xs ys
  | [], ys => by cases ys <;> simp only [renameItems, sameItems]
  | x :: xs, [] => by simp only [renameItems, sameItems]
  | x :: xs, y :: ys => by
    rw [renameItems, renameItems, sameItems, sameItems, equal_rename x y, sameNan_rename, sameItems_rename xs ys]

theorem sameEntries_rename : ∀ es others : List (Value × Value),
    sameEntries (renameEntries σ es) (renameEntries σ others) = sameEntries es others
  | [], others => by simp only [renameEntries, sameEntries]
  | (k, v) :: es, others => by
    have hkey : (fun e : Value × Value => equal (k.rename σ) e.1 || sameNan (k.rename σ) e.1) ∘
        Prod.map (rename σ) (rename σ) = fun e => equal k e.1 || sameNan k e.1 := by
      funext e
      show (equal (k.rename σ) (e.1.rename σ) || sameNan (k.rename σ) (e.1.rename σ)) = _
      rw [equal_rename k, sameNan_rename]
    rw [renameEntries, sameEntries, sameEntries, sameEntries_rename es others, renameEntries_eq_map, List.find?_map, hkey]
    congr 1
    cases others.find? fun e => equal k e.1 || sameNan k e.1 with
    | none => rfl
    | some e =>
      show (equal (v.rename σ) (e.2.rename σ) || sameNan (v.rename σ) (e.2.rename σ)) = _
      rw [equal_rename v, sameNan_rename]

theorem sameFields_rename : ∀ fs others : List (String × Value),
    sameFields (renameFields σ fs) (renameFields σ others) = sameFields fs others
  | [], others => by simp only [renameFields, sameFields]
  | (n, v) :: fs, others => by
    have hname : (fun f : String × Value => n == f.1) ∘ Prod.map id (rename σ) = fun f => n == f.1 := rfl
    rw [renameFields, sameFields, sameFields, sameFields_rename fs others, renameFields_eq_map, List.find?_map, hname]
    congr 1
    cases others.find? fun f => n == f.1 with
    | none => rfl
    | some f =>
      show (equal (v.rename σ) (f.2.rename σ) || sameNan (v.rename σ) (f.2.rename σ)) = _
      rw [equal_rename v, sameNan_rename]

end

@[simp] theorem same_rename (a b : Value) : (a.rename σ).same (b.rename σ) = a.same b := by
  rw [same, same, equal_rename, sameNan_rename]

end Value

/-! ## Entries and keys -/

theorem valueOfKey?_rename (σ : Renaming) (es : List (Value × Value)) (key : Value) :
    valueOfKey? (es.map (Prod.map (Value.rename σ) (Value.rename σ))) (key.rename σ) =
      (valueOfKey? es key).map (Value.rename σ) := by
  have hkey : (fun e : Value × Value => (key.rename σ).same e.1) ∘ Prod.map (Value.rename σ) (Value.rename σ) =
      fun e => key.same e.1 := by
    funext e
    exact Value.same_rename σ key e.1
  rw [valueOfKey?, valueOfKey?, List.find?_map, hkey, Option.map_map, Option.map_map]
  rfl

theorem insertEntry_rename (σ : Renaming) (key value : Value) (es : List (Value × Value)) :
    insertEntry (key.rename σ) (value.rename σ) (es.map (Prod.map (Value.rename σ) (Value.rename σ))) =
      (insertEntry key value es).map (Prod.map (Value.rename σ) (Value.rename σ)) := by
  induction es with
  | nil => rfl
  | cons e es ih =>
    obtain ⟨k, v⟩ := e
    rw [List.map_cons, Prod.map_apply, insertEntry, insertEntry, Value.same_rename, ih]
    split <;> rfl

namespace Value

variable (σ : Renaming)

mutual

theorem hashable_rename : ∀ v : Value, (v.rename σ).hashable = v.hashable
  | tuple items => by rw [rename, hashable, hashable, allHashable_rename items]
  | list _ => by simp only [rename, hashable]
  | dict _ => by simp only [rename, hashable]
  | record _ => by simp only [rename, hashable]
  | none => rfl
  | bool _ => rfl
  | int _ => rfl
  | float _ => rfl
  | nan _ => by simp only [rename, hashable]
  | str _ => rfl
  | bytes _ => rfl
  | callable _ => rfl
  | loop _ _ => rfl
  | faulty _ _ _ => rfl

theorem allHashable_rename : ∀ vs : List Value, allHashable (renameItems σ vs) = allHashable vs
  | [] => rfl
  | v :: vs => by rw [renameItems, allHashable, allHashable, hashable_rename v, allHashable_rename vs]

end

mutual

theorem firstUnhashable?_rename : ∀ v : Value, (v.rename σ).firstUnhashable? = v.firstUnhashable?.map (rename σ)
  | tuple items => by rw [rename, firstUnhashable?, firstUnhashable?, firstUnhashableIn?_rename items]
  | list _ => by simp [firstUnhashable?, hashable]
  | dict _ => by simp [firstUnhashable?, hashable]
  | record _ => by simp [firstUnhashable?, hashable]
  | none => rfl
  | bool _ => rfl
  | int _ => rfl
  | float _ => rfl
  | nan _ => by simp [firstUnhashable?, hashable]
  | str _ => rfl
  | bytes _ => rfl
  | callable _ => rfl
  | loop _ _ => rfl
  | faulty _ _ _ => rfl

theorem firstUnhashableIn?_rename : ∀ vs : List Value,
    firstUnhashableIn? (renameItems σ vs) = (firstUnhashableIn? vs).map (rename σ)
  | [] => rfl
  | v :: vs => by
    rw [renameItems, firstUnhashableIn?, firstUnhashableIn?, firstUnhashable?_rename v, firstUnhashableIn?_rename vs]
    cases v.firstUnhashable? <;> rfl

end

@[simp] theorem checkKey_rename (v : Value) : (v.rename σ).checkKey = v.checkKey := by
  rw [checkKey, checkKey, firstUnhashable?_rename]
  cases v.firstUnhashable? with
  | none => rfl
  | some part => rw [Option.map_some]; dsimp only; rw [qualifiedTypeName_rename]

/-! ## Reading -/

theorem map_rename_characters (s : String) : (characters s).map (rename σ) = characters s := by
  rw [characters, List.map_map]
  rfl

theorem map_rename_int {α : Type} (f : α → Int) (xs : List α) :
    (xs.map fun x => int (f x)).map (rename σ) = xs.map fun x => int (f x) := by
  rw [List.map_map]
  rfl

theorem items?_rename (v : Value) : (v.rename σ).items? = v.items?.map (List.map (rename σ)) := by
  cases v with
  | dict es =>
    rw [rename_dict, items?, items?, Option.map_some, List.map_map, List.map_map]
    rfl
  | str s => rw [rename_str, items?, Option.map_some, map_rename_characters]
  | bytes bs => rw [rename_bytes, items?, Option.map_some, map_rename_int]
  | _ => simp [items?]

theorem items_rename (v : Value) : (v.rename σ).items = List.map (rename σ) <$> v.items := by
  unfold items
  rw [items?_rename]
  cases v.items? with
  | some vs => rfl
  | none => cases v <;> rfl

@[simp] theorem length?_rename (v : Value) : (v.rename σ).length? = v.length? := by
  cases v <;> simp [length?, items?]

end Value

/-- What is read from a value with other marks. -/
def Reading.rename (σ : Renaming) : Reading → Reading
  | found v => found (v.rename σ)
  | missing => missing
  | failed f => failed f

/-- Attributes do not tell marks apart: those of a value with other marks are the same up to these marks. -/
def Attributes.Blind (others : Attributes) (σ : Renaming) : Prop :=
  ∀ v n, others (v.rename σ) n = (others v n).rename σ

namespace Value

variable (σ : Renaming)

theorem readAttribute_rename (v : Value) (n : String) : (v.rename σ).readAttribute n = (v.readAttribute n).rename σ := by
  cases v with
  | dict es =>
    have hvalue := valueOfKey?_rename σ es (str n)
    rw [rename_str] at hvalue
    rw [rename_dict, readAttribute, readAttribute, hvalue]
    cases valueOfKey? es (str n) <;> rfl
  | record fs =>
    have hname : (fun f : String × Value => f.1 == n) ∘ Prod.map id (rename σ) = fun f => f.1 == n := rfl
    rw [rename_record, readAttribute, readAttribute, List.find?_map, hname]
    cases fs.find? fun f => f.1 == n <;> rfl
  | loop i n =>
    rw [rename_loop, readAttribute]
    split_ifs <;> rfl
  | faulty m c t =>
    rw [rename_faulty, readAttribute]
    split_ifs <;> rfl
  | _ => rfl

theorem member_of_ne_dict (others : Attributes) {v : Value} (hv : ∀ es, v ≠ dict es) (n : String) :
    v.member others n = match v.readAttribute n with
      | .missing => others v n
      | r => r := by
  cases v with
  | dict es => exact absurd rfl (hv es)
  | _ => unfold member; split <;> simp_all

theorem member_rename {others : Attributes} (ho : others.Blind σ) (v : Value) (n : String) :
    (v.rename σ).member others n = (v.member others n).rename σ := by
  by_cases hv : ∃ es, v = dict es
  · obtain ⟨es, rfl⟩ := hv
    rw [rename_dict]
    exact (congrArg (Value.readAttribute · n) (rename_dict σ es).symm).trans (readAttribute_rename σ (dict es) n)
  · have hother : ∀ es, v ≠ dict es := fun es h => hv ⟨es, h⟩
    have hrenamed : ∀ es, v.rename σ ≠ dict es := by cases v <;> simp at hother ⊢
    rw [member_of_ne_dict others hother, member_of_ne_dict others hrenamed, readAttribute_rename]
    cases v.readAttribute n with
    | missing => exact ho v n
    | _ => rfl

theorem itemAt_rename (items : List Value) (index : Int) :
    itemAt (items.map (rename σ)) index = (itemAt items index).rename σ := by
  unfold itemAt
  rw [List.length_map]
  cases position? items.length index with
  | none => rfl
  | some i =>
    rw [Option.bind_some, Option.bind_some, List.getElem?_map]
    cases items[i]? <;> rfl

/-- The item of a sequence for a key. -/
def itemBy (items : List Value) (problem : String → TypeProblem) (key : Value) : Reading :=
  match key.whole? with
  | some index => itemAt items index
  | Option.none => .failed (.type (problem key.qualifiedTypeName))

theorem itemBy_rename (items : List Value) (problem : String → TypeProblem) (key : Value) :
    itemBy (items.map (rename σ)) problem (key.rename σ) = (itemBy items problem key).rename σ := by
  unfold itemBy
  rw [whole?_rename, qualifiedTypeName_rename]
  cases key.whole? with
  | none => rfl
  | some index => exact itemAt_rename σ items index

theorem readItem_rename (v key : Value) :
    (v.rename σ).readItem (key.rename σ) = (v.readItem key).rename σ := by
  cases v with
  | dict es =>
    rw [rename_dict, readItem, readItem, checkKey_rename, valueOfKey?_rename]
    cases key.checkKey with
    | error f => rfl
    | ok _ => cases valueOfKey? es key <;> rfl
  | list items => rw [rename_list]; exact itemBy_rename σ items _ key
  | tuple items => rw [rename_tuple]; exact itemBy_rename σ items _ key
  | bytes bs =>
    have hbytes := itemBy_rename σ (bs.map fun b => int b.toNat) (.sequenceIndex "byte") key
    rw [map_rename_int] at hbytes
    exact hbytes
  | str s =>
    have hchars := itemBy_rename σ (characters s) .textIndex key
    rw [map_rename_characters] at hchars
    exact hchars
  | _ => rfl

/-! ## Order -/

mutual

@[simp] theorem ordered_rename (op : OrderOp) : ∀ a b : Value, ordered op (a.rename σ) (b.rename σ) = ordered op a b
  | list xs, b => by
    cases b with
    | list ys => rw [rename, rename, ordered, ordered, orderedItems_rename op xs ys]
    | _ => simp only [rename, ordered]; rfl
  | tuple xs, b => by
    cases b with
    | tuple ys => rw [rename, rename, ordered, ordered, orderedItems_rename op xs ys]
    | _ => simp only [rename, ordered]; rfl
  | dict _, b => by cases b <;> simp only [rename, ordered] <;> rfl
  | record _, b => by cases b <;> simp only [rename, ordered] <;> rfl
  | none, b => by cases b <;> simp only [rename, ordered] <;> rfl
  | bool _, b => by cases b <;> simp only [rename, ordered] <;> rfl
  | int _, b => by cases b <;> simp only [rename, ordered] <;> rfl
  | float _, b => by cases b <;> simp only [rename, ordered] <;> rfl
  | nan _, b => by cases b <;> simp only [rename, ordered] <;> rfl
  | str _, b => by cases b <;> simp only [rename, ordered] <;> rfl
  | bytes _, b => by cases b <;> simp only [rename, ordered] <;> rfl
  | callable _, b => by cases b <;> simp only [rename, ordered] <;> rfl
  | loop _ _, b => by cases b <;> simp only [rename, ordered] <;> rfl
  | faulty _ _ _, b => by cases b <;> simp only [rename, ordered] <;> rfl

theorem orderedItems_rename (op : OrderOp) : ∀ xs ys : List Value,
    orderedItems op (renameItems σ xs) (renameItems σ ys) = orderedItems op xs ys
  | [], ys => by cases ys <;> simp only [renameItems, orderedItems]
  | x :: xs, [] => by simp only [renameItems, orderedItems]
  | x :: xs, y :: ys => by
    rw [renameItems, renameItems, orderedItems, orderedItems, same_rename, orderedItems_rename op xs ys,
      ordered_rename op x y]

end

/-! ## Texts -/

mutual

@[simp] theorem quotedForm_rename : ∀ v : Value, (v.rename σ).quotedForm = v.quotedForm
  | list items => by rw [rename, quotedForm, quotedForm, quotedItems_rename items]
  | tuple items => by rw [rename, quotedForm, quotedForm, quotedItems_rename items]
  | dict entries => by rw [rename, quotedForm, quotedForm, quotedEntries_rename entries]
  | record fields => by rw [rename, quotedForm, quotedForm, quotedFields_rename fields]
  | none => rfl
  | bool _ => rfl
  | int _ => rfl
  | float _ => rfl
  | nan _ => by simp only [rename, quotedForm, quotedAtom]
  | str _ => rfl
  | bytes _ => rfl
  | callable _ => rfl
  | loop _ _ => rfl
  | faulty _ _ _ => rfl

theorem quotedItems_rename : ∀ vs : List Value, quotedItems (renameItems σ vs) = quotedItems vs
  | [] => rfl
  | v :: vs => by rw [renameItems, quotedItems, quotedItems, quotedForm_rename v, quotedItems_rename vs]

theorem quotedEntries_rename : ∀ es : List (Value × Value), quotedEntries (renameEntries σ es) = quotedEntries es
  | [] => rfl
  | (k, v) :: es => by
    rw [renameEntries, quotedEntries, quotedEntries, quotedForm_rename k, quotedForm_rename v, quotedEntries_rename es]

theorem quotedFields_rename : ∀ fs : List (String × Value), quotedFields (renameFields σ fs) = quotedFields fs
  | [] => rfl
  | (n, v) :: fs => by
    rw [renameFields, quotedFields, quotedFields, quotedForm_rename v, quotedFields_rename fs]

end

@[simp] theorem plainText_rename (v : Value) : (v.rename σ).plainText = v.plainText := by
  cases v <;> first
  | rfl
  | exact quotedForm_rename σ _

@[simp] theorem outputText_rename (v : Value) : (v.rename σ).outputText = v.outputText := by
  cases v <;> first
  | rfl
  | exact quotedForm_rename σ _

end Value

end TemplateEngine

/-
Callables and marks. The filters and functions of the library tell values apart by their marks at most, and so does a host
whose callables depend on nothing but their arguments: with other marks in the arguments the outcome is the same up to
these marks.
-/
import TemplateEngine.Callable.Host
import TemplateEngine.Proofs.Sorting.Natural
import TemplateEngine.Proofs.Value.Equivariance
import TemplateEngine.Proofs.Value.Marks

namespace TemplateEngine

/-- The results of some items are those of others, changed, where each one's is. -/
theorem mapM_map_of_map {ε α α' β β' : Type} {g : α → α'} {g' : β → β'} {k : α → Except ε β} {k' : α' → Except ε β'}
    (h : ∀ x, k' (g x) = g' <$> k x) (xs : List α) : (xs.map g).mapM k' = List.map g' <$> xs.mapM k := by
  induction xs with
  | nil => rfl
  | cons x xs ih =>
    rw [List.map_cons, List.mapM_cons, List.mapM_cons, h, ih, bind_map_left, map_bind]
    refine bind_congr fun y => ?_
    rw [bind_map_left, map_bind]
    rfl

variable (σ : Renaming)

namespace Value

theorem itemsOrNone_rename (v : Value) : (v.rename σ).itemsOrNone = List.map (rename σ) <$> v.itemsOrNone := by
  unfold itemsOrNone
  rw [truthy_rename, items_rename]
  split <;> rfl

theorem checkItems_rename (v : Value) : (v.rename σ).checkItems = v.checkItems := by
  unfold checkItems
  rw [itemsOrNone_rename]
  cases v.itemsOrNone with
  | ok items => rfl
  | error f => cases f <;> rfl

/-- A reading as the outcome of a filter, for which what is missing is `none`. -/
def Reading.orNone : Reading → Except Fault Value
  | .found v => .ok v
  | .missing => .ok none
  | .failed f => .error f

variable {others : Attributes}

theorem part_str {item : Value} (h : ∀ es, item ≠ dict es) (n : String) :
    item.part others (str n) = Reading.orNone (item.member others n) := by
  unfold part
  split
  · exact absurd rfl (h _)
  · dsimp only
    cases item.member others n <;> rfl

theorem part_rename (ho : others.Blind σ) (item name : Value) :
    (item.rename σ).part others (name.rename σ) = rename σ <$> item.part others name := by
  cases item with
  | dict es =>
    rw [rename_dict, part, part, checkKey_rename, valueOfKey?_rename]
    cases name.checkKey with
    | error f => rfl
    | ok _ => cases valueOfKey? es name <;> rfl
  | _ =>
    cases name with
    | str n =>
      rw [rename_str σ n, part_str (by simp), part_str (by simp), member_rename σ ho]
      generalize member others _ n = reading
      cases reading <;> rfl
    | _ =>
      simp only [rename, part]
      rfl

theorem partOrSelf_rename (ho : others.Blind σ) (item name : Value) :
    (item.rename σ).partOrSelf others (name.rename σ) = rename σ <$> item.partOrSelf others name := by
  cases name <;> first
  | rfl
  | exact part_rename σ ho item _

end Value

theorem orElseOnMisfit_map {α β : Type} (g : α → β) (first : Except Fault α) (second : Unit → Except Fault α) :
    (orElseOnMisfit (g <$> first) fun u => g <$> second u) = g <$> orElseOnMisfit first second := by
  cases first with
  | ok a => rfl
  | error f => cases f <;> rfl

namespace BuiltinFilter

open Value

/-! ## Filters -/

theorem ofOutput_rename (f : String → String) (v : Value) : ofOutput f (v.rename σ) = rename σ <$> ofOutput f v := by
  rw [ofOutput, ofOutput, outputText_rename]
  cases v.outputText <;> rfl

theorem defaultValue_rename (v fallback whenFalse : Value) :
    defaultValue (v.rename σ) (fallback.rename σ) (whenFalse.rename σ) = (defaultValue v fallback whenFalse).rename σ := by
  have hother {w fallback whenFalse : Value} (hw : w ≠ .none) :
      defaultValue w fallback whenFalse = if whenFalse.truthy && !w.truthy then fallback else w := by
    cases w with
    | none => exact absurd rfl hw
    | _ => rfl
  by_cases hv : v = .none
  · subst hv
    rfl
  · have hrenamed : v.rename σ ≠ .none := by cases v <;> simp at hv ⊢
    rw [hother hv, hother hrenamed, truthy_rename, truthy_rename]
    split_ifs <;> rfl

theorem trimmed_rename (v chars : Value) : trimmed (v.rename σ) (chars.rename σ) = rename σ <$> trimmed v chars := by
  rw [trimmed, trimmed, outputText_rename]
  cases v.outputText with
  | error f => rfl
  | ok text => cases chars <;> simp only [rename] <;> rfl

theorem lengthOf_rename (v : Value) : lengthOf (v.rename σ) = rename σ <$> lengthOf v := by
  rw [lengthOf, lengthOf, length?_rename, outputText_rename]
  cases v.length? with
  | some n => rfl
  | none => cases v.outputText <;> rfl

/-- The output texts of some items, or of parts of them. -/
def partTexts (others : Attributes) (v name : Value) : Except Fault (List String) := do
  (← v.itemsOrNone).mapM fun item => do (← item.partOrSelf others name).outputText

variable {others : Attributes}

theorem partTexts_rename (ho : others.Blind σ) (v name : Value) :
    partTexts others (v.rename σ) (name.rename σ) = partTexts others v name := by
  have htext (item : Value) : ((item.rename σ).partOrSelf others (name.rename σ) >>= outputText) =
      id <$> (item.partOrSelf others name >>= outputText) := by
    rw [partOrSelf_rename σ ho, bind_map_left, id_map]
    exact bind_congr fun part => outputText_rename σ part
  rw [partTexts, itemsOrNone_rename, bind_map_left]
  refine bind_congr fun items => ?_
  rw [mapM_map_of_map htext, List.map_id_fun, id_map]

/-- What is checked before the separator of a joined text is read. -/
def checkParts (v name : Value) : Except Fault Unit :=
  match name with
  | .none => .ok ()
  | _ => v.checkItems

theorem checkParts_rename (v name : Value) : checkParts (v.rename σ) (name.rename σ) = checkParts v name := by
  cases name <;> first
  | rfl
  | exact checkItems_rename σ v

theorem joined_eq (v separator name : Value) : joined others v separator name = do
    checkParts v name
    return str ((← separator.plainText).intercalate (← partTexts others v name)) := by
  unfold joined partTexts
  simp only [bind_assoc]
  cases name <;> rfl

theorem joined_rename (ho : others.Blind σ) (v separator name : Value) :
    joined others (v.rename σ) (separator.rename σ) (name.rename σ) = rename σ <$> joined others v separator name := by
  rw [joined_eq, joined_eq, checkParts_rename, plainText_rename, partTexts_rename σ ho]
  simp only [map_bind, map_pure, rename_str]

theorem replacementText_rename (position : Nat) (v : Value) :
    replacementText position (v.rename σ) = replacementText position v := by
  cases v <;> rfl

/-- How often a part is replaced at most. -/
def replacementLimit : Value → Except Fault (Option Int)
  | .none => .ok Option.none
  | count => some <$> count.toWhole

theorem replacementLimit_rename (count : Value) : replacementLimit (count.rename σ) = replacementLimit count := by
  cases count <;> rfl

theorem replaced_eq (v old new count : Value) : replaced v old new count = do
    let text ← v.outputText
    let limit ← replacementLimit count
    let old ← replacementText 1 old
    let new ← replacementText 2 new
    if limit.any (!isIndex ·) then .error (.overflow .size)
    else return str (Text.replace text old new (limit.bind fun n => if n < 0 then Option.none else some n.toNat)) := by
  unfold replaced
  cases count <;> rfl

theorem replaced_rename (v old new count : Value) :
    replaced (v.rename σ) (old.rename σ) (new.rename σ) (count.rename σ) = rename σ <$> replaced v old new count := by
  rw [replaced_eq, replaced_eq, outputText_rename, replacementLimit_rename, replacementText_rename, replacementText_rename]
  simp only [map_bind]
  refine bind_congr fun text => bind_congr fun limit => bind_congr fun _ => bind_congr fun _ => ?_
  split_ifs <;> rfl

theorem wholeOr_rename (v fallback : Value) :
    wholeOr (v.rename σ) (fallback.rename σ) = rename σ <$> wholeOr v fallback := by
  rw [wholeOr, wholeOr, toWhole_rename, toFloat_rename, ← orElseOnMisfit_map, Functor.map_map]
  refine congrArg (orElseOnMisfit _) (funext fun _ => ?_)
  rw [← orElseOnMisfit_map]
  simp only [map_bind, map_pure, rename_int]
  rfl

theorem floatOr_rename (v fallback : Value) :
    floatOr (v.rename σ) (fallback.rename σ) = rename σ <$> floatOr v fallback := by
  have hother {w fallback : Value} (hw : ∀ m, w ≠ .nan m) :
      floatOr w fallback = orElseOnMisfit (.float <$> w.toFloat) fun _ => .ok fallback := by
    cases w with
    | nan m => exact absurd rfl (hw m)
    | _ => rfl
  cases v with
  | nan m => rfl
  | _ =>
    rw [hother (by simp), hother (by simp), toFloat_rename, ← orElseOnMisfit_map, Functor.map_map]
    rfl

theorem reversed_rename (v : Value) : reversed (v.rename σ) = rename σ <$> reversed v := by
  have hother {w : Value} (hw : ∀ s, w ≠ .str s) : reversed w = (fun items => .list items.reverse) <$> w.itemsOrNone := by
    cases w with
    | str s => exact absurd rfl (hw s)
    | _ => rfl
  cases v with
  | str s => rfl
  | _ =>
    rw [hother (by simp), hother (by simp), itemsOrNone_rename, Functor.map_map, Functor.map_map]
    simp only [rename_list, List.map_reverse]

/-- The order of items by their keys. -/
def byKey : Smaller (Value × Value) :=
  fun a b => a.1.ordered .lt b.1

theorem sortedItems_rename (ho : others.Blind σ) (v falling name : Value) :
    sortedItems others (v.rename σ) (falling.rename σ) (name.rename σ) = rename σ <$> sortedItems others v falling name := by
  have hkeyed (item : Value) : (do return (← (item.rename σ).partOrSelf others (name.rename σ), item.rename σ)) =
      Prod.map (rename σ) (rename σ) <$> (do return (← item.partOrSelf others name, item) : Except Fault (Value × Value)) := by
    rw [partOrSelf_rename σ ho, bind_map_left, map_bind]
    rfl
  have hsmaller (a b : Value × Value) : byKey (a.map (rename σ) (rename σ)) (b.map (rename σ) (rename σ)) = byKey a b :=
    ordered_rename σ .lt a.1 b.1
  have hresult (result : List (Value × Value)) :
      (pure (.list ((result.map (Prod.map (rename σ) (rename σ))).map (·.2))) : Except Fault Value) =
        rename σ <$> pure (.list (result.map (·.2))) := by
    rw [map_pure, rename_list, List.map_map, List.map_map]
    rfl
  unfold sortedItems
  rw [itemsOrNone_rename, bind_map_left, map_bind]
  refine bind_congr fun items => ?_
  rw [mapM_map_of_map hkeyed, bind_map_left, map_bind, truthy_rename]
  refine bind_congr fun keyed => ?_
  dsimp only
  split_ifs
  · show (sortedFalling byKey (keyed.map _) >>= _) = rename σ <$> (sortedFalling byKey keyed >>= _)
    rw [sortedFalling_map hsmaller, bind_map_left, map_bind]
    exact bind_congr hresult
  · show (sorted byKey (keyed.map _) >>= _) = rename σ <$> (sorted byKey keyed >>= _)
    rw [sorted_map hsmaller, bind_map_left, map_bind]
    exact bind_congr hresult

/-- A filter of the library is applied to values with other marks as to the values themselves. -/
theorem apply_rename (ho : others.Blind σ) (f : BuiltinFilter) (v : Value) (args : List Value) :
    f.apply others (v.rename σ) (args.map (rename σ)) = rename σ <$> f.apply others v args := by
  have harg (i : Nat) {fallback : Value} (hf : fallback.rename σ = fallback) :
      (args.map (rename σ))[i]?.getD fallback = (args[i]?.getD fallback).rename σ := by
    rw [List.getElem?_map]
    cases args[i]? with
    | none => exact hf.symm
    | some w => rfl
  unfold apply
  cases f with
  | default =>
    dsimp only
    rw [harg 0 rfl, harg 1 rfl, defaultValue_rename]
    rfl
  | upper => exact ofOutput_rename σ _ v
  | lower => exact ofOutput_rename σ _ v
  | capitalize => exact ofOutput_rename σ _ v
  | title => exact ofOutput_rename σ _ v
  | trim =>
    dsimp only
    rw [harg 0 rfl, trimmed_rename]
  | length =>
    cases v with
    | none => rfl
    | _ => exact lengthOf_rename σ _
  | join =>
    dsimp only
    rw [harg 0 rfl, harg 1 rfl, joined_rename σ ho]
  | first =>
    dsimp only
    rw [itemsOrNone_rename, bind_map_left, map_bind]
    exact bind_congr fun items => congrArg pure (List.headD_map (f := rename σ) (a := .none))
  | last =>
    dsimp only
    rw [itemsOrNone_rename, bind_map_left, map_bind]
    exact bind_congr fun items => congrArg pure (List.getLastD_map (f := rename σ) (a := .none))
  | replace =>
    dsimp only
    rw [harg 0 rfl, harg 1 rfl, harg 2 rfl, replaced_rename]
  | escape => exact ofOutput_rename σ _ v
  | int =>
    dsimp only
    rw [harg 0 rfl, wholeOr_rename]
  | float =>
    dsimp only
    rw [harg 0 rfl, floatOr_rename]
  | string => exact ofOutput_rename σ _ v
  | reverse => exact reversed_rename σ v
  | sort =>
    dsimp only
    rw [harg 0 rfl, harg 1 rfl, sortedItems_rename σ ho]

end BuiltinFilter

namespace BuiltinFunction

open Value

/-! ## Functions -/

theorem progression_rename (start step : Int) (count : Nat) :
    (progression start step count).map (rename σ) = progression start step count := by
  induction count generalizing start with
  | zero => rfl
  | succ count ih => rw [progression, List.map_cons, rename_int, ih]

/-- The numbers from a start to an end with a step between them. -/
def numbersWithin (memory : Nat) (start stop step : Int) : Except Fault Value :=
  let length := progressionLength start stop step
  if step == 0 then .error (.value .rangeStep)
  else if !isIndex length then .error (.overflow .size)
  else if memory < itemSize (.list []) * length then .error (.foreign .memory "")
  else .ok (.list (progression start step length))

theorem numbersWithin_rename (memory : Nat) (start stop step : Int) :
    rename σ <$> numbersWithin memory start stop step = numbersWithin memory start stop step := by
  unfold numbersWithin
  dsimp only
  split_ifs
  · rfl
  · rfl
  · rfl
  · exact congrArg Except.ok (by rw [rename_list, progression_rename])

theorem numbers_eq (memory : Nat) (args : List Value) : numbers memory args = args.mapM toWhole >>= fun
    | [stop] => numbersWithin memory 0 stop 1
    | [start, stop] => numbersWithin memory start stop 1
    | [start, stop, step] => numbersWithin memory start stop step
    | limits => .error (.type (.rangeArguments limits.length)) := by
  unfold numbers numbersWithin
  refine bind_congr fun limits => ?_
  match limits with
  | [] => rfl
  | [stop] =>
    simp only [pure_bind]
    split_ifs <;> rfl
  | [start, stop] =>
    simp only [pure_bind]
    split_ifs <;> rfl
  | [start, stop, step] =>
    simp only [pure_bind]
    split_ifs <;> rfl
  | _ :: _ :: _ :: _ :: _ => rfl

theorem numbers_rename (memory : Nat) (args : List Value) :
    numbers memory (args.map (rename σ)) = rename σ <$> numbers memory args := by
  have hlimit (v : Value) : (v.rename σ).toWhole = id <$> v.toWhole := (toWhole_rename σ v).trans (id_map v.toWhole).symm
  have hlimits : (args.map (rename σ)).mapM toWhole = args.mapM toWhole := by
    rw [mapM_map_of_map hlimit, List.map_id_fun, id_map]
  rw [numbers_eq, numbers_eq, hlimits, map_bind]
  refine bind_congr fun limits => ?_
  split
  · exact (numbersWithin_rename σ memory _ _ _).symm
  · exact (numbersWithin_rename σ memory _ _ _).symm
  · exact (numbersWithin_rename σ memory _ _ _).symm
  · rfl

theorem lengthOf_rename (v : Value) : lengthOf (v.rename σ) = rename σ <$> lengthOf v := by
  have hother {w : Value} (hw : w ≠ .none) :
      lengthOf w = w.length?.elim (.error (.type (.noLength w.qualifiedTypeName))) fun n => .ok (.int n) := by
    unfold lengthOf
    split
    · exact absurd rfl hw
    · cases w.length? <;> rfl
  by_cases hv : v = .none
  · subst hv
    rfl
  · have hrenamed : v.rename σ ≠ .none := by cases v <;> simp at hv ⊢
    rw [hother hv, hother hrenamed, length?_rename, qualifiedTypeName_rename]
    cases v.length? <;> rfl

/-- Entries with other marks. -/
abbrev renamedEntries : List (Value × Value) → List (Value × Value) :=
  List.map (Prod.map (rename σ) (rename σ))

theorem addEntry_rename (es : List (Value × Value)) (k v : Value) :
    addEntry (renamedEntries σ es) (k.rename σ) (v.rename σ) = renamedEntries σ <$> addEntry es k v := by
  rw [addEntry, addEntry, checkKey_rename, insertEntry_rename, map_bind]
  rfl

theorem addPairs_rename (es : List (Value × Value)) (index : Nat) (pairs : List Value) :
    addPairs (renamedEntries σ es) index (pairs.map (rename σ)) = renamedEntries σ <$> addPairs es index pairs := by
  induction pairs generalizing es index with
  | nil => rfl
  | cons pair pairs ih =>
    rw [List.map_cons, addPairs, addPairs, items_rename]
    cases pair.items with
    | error f => cases f <;> rfl
    | ok items =>
      match items with
      | [k, v] =>
        show (addEntry (renamedEntries σ es) (k.rename σ) (v.rename σ) >>= fun es => addPairs es (index + 1) _) =
          renamedEntries σ <$> (addEntry es k v >>= fun es => addPairs es (index + 1) pairs)
        rw [addEntry_rename, bind_map_left, map_bind]
        exact bind_congr fun es => ih es (index + 1)
      | [] => rfl
      | [_] => rfl
      | _ :: _ :: _ :: more =>
        show Except.error (Fault.value (.pairLength index ((more.map (rename σ)).length + 3))) =
          .error (Fault.value (.pairLength index (more.length + 3)))
        rw [List.length_map]

theorem addAlternating_rename (es : List (Value × Value)) (args : List Value) :
    addAlternating (renamedEntries σ es) (args.map (rename σ)) = renamedEntries σ <$> addAlternating es args := by
  induction es, args using addAlternating.induct with
  | case1 es k v rest ih =>
    rw [List.map_cons, List.map_cons, addAlternating, addAlternating, addEntry_rename, bind_map_left, map_bind]
    exact bind_congr ih
  | case2 rest es hrest =>
    match rest with
    | [] => rfl
    | [_] => rfl
    | k :: v :: rest => exact absurd rfl (hrest k v rest)

theorem mapping_rename (args : List Value) : mapping (args.map (rename σ)) = rename σ <$> mapping args := by
  have hsource (source : Value) : (do return .dict (← addPairs [] 0 (← (source.rename σ).items))) =
      rename σ <$> (do return .dict (← addPairs [] 0 (← source.items)) : Except Fault Value) := by
    rw [items_rename, bind_map_left, map_bind]
    refine bind_congr fun pairs => ?_
    rw [← List.map_nil, addPairs_rename, bind_map_left, map_bind]
    refine bind_congr fun es => ?_
    rw [map_pure, rename_dict]
  match args with
  | [] => rfl
  | [source] =>
    cases source with
    | dict es => rfl
    | _ => exact hsource _
  | k :: v :: rest =>
    have hentries : addAlternating [] ((k :: v :: rest).map (rename σ)) = renamedEntries σ <$> addAlternating [] (k :: v :: rest) :=
      addAlternating_rename σ [] (k :: v :: rest)
    have hmapping (k v : Value) (rest : List Value) : mapping (k :: v :: rest) =
        if (k :: v :: rest).length % 2 == 1 then .error (.value .oddArguments)
        else .dict <$> addAlternating [] (k :: v :: rest) := by
      rw [mapping] <;> simp
    rw [List.map_cons, List.map_cons, hmapping, hmapping, ← List.map_cons, ← List.map_cons, List.length_map, hentries]
    split_ifs
    · rfl
    · rw [Functor.map_map, Functor.map_map]
      simp only [rename_dict]

/-- A function of the library is applied to values with other marks as to the values themselves. -/
theorem apply_rename (memory : Nat) (f : BuiltinFunction) (args : List Value) :
    f.apply memory (args.map (rename σ)) = rename σ <$> f.apply memory args := by
  cases f with
  | range => exact numbers_rename σ memory args
  | len =>
    rw [apply, apply, ← lengthOf_rename]
    exact congrArg lengthOf (List.headD_map (f := rename σ) (a := .none))
  | dict => exact mapping_rename σ args

end BuiltinFunction

/-! ## Calls -/

/-- The callables of a host depend on their arguments alone, and attributes on the value that has them: which marks those
have makes no difference but for the marks in the outcome. Marks that were given may be found in the host too. -/
structure Host.Pure (h : Host) : Prop where
  call : ∀ σ : Renaming, σ.Fixes 0 → ∀ name args, h.call name (args.map (Value.rename σ)) = Value.rename σ <$> h.call name args
  attributes : ∀ σ : Renaming, σ.Fixes 0 → h.attributes.Blind σ

theorem Host.pure_empty : Host.empty.Pure :=
  ⟨fun _ _ _ _ => rfl, fun _ _ _ _ => rfl⟩

variable {h : Host} {σ}

theorem liftFault_map {α β : Type} (g : α → β) (r : Except Fault α) : liftFault (g <$> r) = g <$> liftFault r := by
  cases r <;> rfl

theorem Callable.apply_rename (hh : h.Pure) (hσ : σ.Fixes 0) (c : Callable) (args : List Value) :
    c.apply h (args.map (Value.rename σ)) = Value.rename σ <$> c.apply h args := by
  cases c with
  | filter f =>
    rw [apply, apply, ← liftFault_map, map_bind, List.length_map, ← List.map_tail]
    refine congrArg liftFault (bind_congr fun _ => ?_)
    rw [← BuiltinFilter.apply_rename σ (hh.attributes σ hσ)]
    exact congrArg (f.apply h.attributes · _) (List.headD_map (f := Value.rename σ) (a := .none))
  | function f =>
    rw [apply, apply, ← liftFault_map, map_bind, List.length_map]
    exact congrArg liftFault (bind_congr fun _ => BuiltinFunction.apply_rename σ h.memory f args)
  | host name => exact hh.call σ hσ name args

/-- A call with arguments that have other marks. -/
theorem Value.apply_rename (hh : h.Pure) (hσ : σ.Fixes 0) (v : Value) (args : List Value) :
    v.apply h (args.map (rename σ)) = rename σ <$> v.apply h args := by
  cases v with
  | callable c => exact c.apply_rename hh hσ args
  | _ => rfl

end TemplateEngine

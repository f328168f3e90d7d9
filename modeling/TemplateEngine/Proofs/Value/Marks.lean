/-
New marks. A mark is older than the values of an expression if it was given, or was made at a lower level; those that
evaluation makes are not, and differ from all the marks in use. A change of marks that leaves the older ones alone can
therefore be extended to a mark that is made.
-/
import Mathlib.Logic.Equiv.Basic
import TemplateEngine.Proofs.Value.Renaming
import TemplateEngine.Value.Identity

namespace TemplateEngine

/-! ## Older marks -/

/-- A mark was not made at a level or above. -/
def Mark.Before (level : Nat) : Mark → Prop
  | given _ => True
  | made l _ => l < level

theorem Mark.Before.mono {m : Mark} {level level' : Nat} (h : m.Before level) (hle : level ≤ level') : m.Before level' := by
  cases m with
  | given n => trivial
  | made l i => exact Nat.lt_of_lt_of_le h hle

/-- All `nan`s of a value are older than a level. -/
def Value.Before (level : Nat) (v : Value) : Prop :=
  ∀ m, v.Has (.nan m) → m.Before level

namespace Renaming

/-- The older marks stay. -/
def Fixes (level : Nat) (σ : Renaming) : Prop :=
  ∀ m : Mark, m.Before level → σ m = m

variable {σ : Renaming} {level : Nat}

theorem fixes_refl (level : Nat) : Fixes level (Equiv.refl Mark) :=
  fun _ _ => rfl

theorem Fixes.mono {level' : Nat} (h : Fixes level σ) (hle : level' ≤ level) : Fixes level' σ :=
  fun m hm => h m (hm.mono hle)

/-- A mark that is changed is not one of the older ones. -/
theorem Fixes.not_before (h : Fixes level σ) {m : Mark} (hm : ¬ m.Before level) : ¬ (σ m).Before level := by
  intro hbefore
  rw [σ.injective (h (σ m) hbefore)] at hbefore
  exact hm hbefore

/-- A change of marks is extended by a new mark on either side. -/
theorem Fixes.exists_extension (h : Fixes level σ) {m m' : Mark} (hm : ¬ m.Before level) (hm' : ¬ m'.Before level)
    {P : Mark → Prop} (hnew : ¬ P m) (hnew' : ∀ k, P k → σ k ≠ m') :
    ∃ τ : Renaming, Fixes level τ ∧ τ m = m' ∧ ∀ k, P k → τ k = σ k := by
  refine ⟨σ.trans (Equiv.swap (σ m) m'), fun k hk => ?_, Equiv.swap_apply_left _ _, fun k hk => ?_⟩
  · rw [Equiv.trans_apply, h k hk]
    refine Equiv.swap_apply_of_ne_of_ne ?_ ?_
    · rintro rfl
      exact h.not_before hm hk
    · rintro rfl
      exact hm' hk
  · refine Equiv.swap_apply_of_ne_of_ne (fun heq => hnew ?_) (hnew' k hk)
    rwa [← σ.injective heq]

end Renaming

namespace Value

/-! ## The marks of a value -/

theorem Has.rename (σ : Renaming) {v w : Value} (h : v.Has w) : (v.rename σ).Has (w.rename σ) := by
  induction h with
  | self v => exact .self _
  | listItem hv _ ih =>
    rw [rename_list]
    exact .listItem (List.mem_map_of_mem hv) ih
  | tupleItem hv _ ih =>
    rw [rename_tuple]
    exact .tupleItem (List.mem_map_of_mem hv) ih
  | key he _ ih =>
    rw [rename_dict]
    exact .key (List.mem_map_of_mem he) ih
  | value he _ ih =>
    rw [rename_dict]
    exact .value (List.mem_map_of_mem he) ih
  | field hf _ ih =>
    rw [rename_record]
    exact .field (List.mem_map_of_mem hf) ih

section

variable {σ τ : Renaming}

mutual

/-- Changes that agree on the marks of a value change it alike. -/
theorem rename_congr : ∀ v : Value, (∀ m, v.Has (nan m) → τ m = σ m) → v.rename τ = v.rename σ
  | list vs, h => by rw [rename, rename, renameItems_congr vs fun v hv m hm => h m (.listItem hv hm)]
  | tuple vs, h => by rw [rename, rename, renameItems_congr vs fun v hv m hm => h m (.tupleItem hv hm)]
  | dict es, h => by
    rw [rename, rename, renameEntries_congr es (fun k v he m hm => h m (.key he hm)) fun k v he m hm => h m (.value he hm)]
  | record fs, h => by rw [rename, rename, renameFields_congr fs fun n v hf m hm => h m (.field hf hm)]
  | nan m, h => by rw [rename, rename, h m (.self _)]
  | none, _ => rfl
  | bool _, _ => rfl
  | int _, _ => rfl
  | float _, _ => rfl
  | str _, _ => rfl
  | bytes _, _ => rfl
  | callable _, _ => rfl
  | loop _ _, _ => rfl
  | faulty _ _ _, _ => rfl

theorem renameItems_congr : ∀ vs : List Value, (∀ v ∈ vs, ∀ m, v.Has (nan m) → τ m = σ m) →
    renameItems τ vs = renameItems σ vs
  | [], _ => rfl
  | v :: vs, h => by
    rw [renameItems, renameItems, rename_congr v (h v List.mem_cons_self),
      renameItems_congr vs fun w hw => h w (List.mem_cons_of_mem v hw)]

theorem renameEntries_congr : ∀ es : List (Value × Value), (∀ k v, (k, v) ∈ es → ∀ m, k.Has (nan m) → τ m = σ m) →
    (∀ k v, (k, v) ∈ es → ∀ m, v.Has (nan m) → τ m = σ m) → renameEntries τ es = renameEntries σ es
  | [], _, _ => rfl
  | (k, v) :: es, hk, hv => by
    rw [renameEntries, renameEntries, rename_congr k (hk k v List.mem_cons_self), rename_congr v (hv k v List.mem_cons_self),
      renameEntries_congr es (fun k' v' he => hk k' v' (List.mem_cons_of_mem _ he))
        fun k' v' he => hv k' v' (List.mem_cons_of_mem _ he)]

theorem renameFields_congr : ∀ fs : List (String × Value), (∀ n v, (n, v) ∈ fs → ∀ m, v.Has (nan m) → τ m = σ m) →
    renameFields τ fs = renameFields σ fs
  | [], _ => rfl
  | (n, v) :: fs, h => by
    rw [renameFields, renameFields, rename_congr v (h n v List.mem_cons_self),
      renameFields_congr fs fun n' v' hf => h n' v' (List.mem_cons_of_mem _ hf)]

end

end

mutual

theorem rename_refl : ∀ v : Value, v.rename (Equiv.refl Mark) = v
  | list vs => by rw [rename, renameItems_refl vs]
  | tuple vs => by rw [rename, renameItems_refl vs]
  | dict es => by rw [rename, renameEntries_refl es]
  | record fs => by rw [rename, renameFields_refl fs]
  | nan _ => rfl
  | none => rfl
  | bool _ => rfl
  | int _ => rfl
  | float _ => rfl
  | str _ => rfl
  | bytes _ => rfl
  | callable _ => rfl
  | loop _ _ => rfl
  | faulty _ _ _ => rfl

theorem renameItems_refl : ∀ vs : List Value, renameItems (Equiv.refl Mark) vs = vs
  | [] => rfl
  | v :: vs => by rw [renameItems, rename_refl v, renameItems_refl vs]

theorem renameEntries_refl : ∀ es : List (Value × Value), renameEntries (Equiv.refl Mark) es = es
  | [] => rfl
  | (k, v) :: es => by rw [renameEntries, rename_refl k, rename_refl v, renameEntries_refl es]

theorem renameFields_refl : ∀ fs : List (String × Value), renameFields (Equiv.refl Mark) fs = fs
  | [] => rfl
  | (n, v) :: fs => by rw [renameFields, rename_refl v, renameFields_refl fs]

end

/-- A value with older marks only stays. -/
theorem Before.rename_eq {level : Nat} {v : Value} (hv : v.Before level) {σ : Renaming} (hσ : Renaming.Fixes level σ) :
    v.rename σ = v := by
  rw [rename_congr (σ := Equiv.refl Mark) v fun m hm => hσ m (hv m hm), rename_refl]

/-! ## Bounds -/

theorem indexBound_le_of_key {level : Nat} {k v : Value} {es : List (Value × Value)} (h : (k, v) ∈ es) :
    k.indexBound level ≤ indexBoundOfEntries level es ∧ v.indexBound level ≤ indexBoundOfEntries level es := by
  induction es with
  | nil => cases h
  | cons e es ih =>
    obtain ⟨k', v'⟩ := e
    rw [indexBoundOfEntries]
    rcases List.mem_cons.1 h with h | h
    · cases h
      omega
    · have := ih h
      omega

theorem indexBound_le_of_field {level : Nat} {n : String} {v : Value} {fs : List (String × Value)} (h : (n, v) ∈ fs) :
    v.indexBound level ≤ indexBoundOfFields level fs := by
  induction fs with
  | nil => cases h
  | cons f fs ih =>
    obtain ⟨n', v'⟩ := f
    rw [indexBoundOfFields]
    rcases List.mem_cons.1 h with h | h
    · cases h
      omega
    · have := ih h
      omega

/-- A part of a value has no greater bound. -/
theorem Has.indexBound_le {level : Nat} {v w : Value} (h : v.Has w) : w.indexBound level ≤ v.indexBound level := by
  induction h with
  | self v => exact Nat.le_refl _
  | listItem hv _ ih => exact Nat.le_trans ih (indexBound_le_of_mem hv)
  | tupleItem hv _ ih => exact Nat.le_trans ih (indexBound_le_of_mem hv)
  | key he _ ih => exact Nat.le_trans ih (indexBound_le_of_key he).1
  | value he _ ih => exact Nat.le_trans ih (indexBound_le_of_key he).2
  | field hf _ ih => exact Nat.le_trans ih (indexBound_le_of_field hf)

/-- The mark that is made next at a level is in no value in use. -/
theorem not_has_next {level : Nat} {v : Value} {inUse : List Value} (hv : v ∈ inUse) :
    ¬ v.Has (nan (.made level (indexBoundOfItems level inUse))) := by
  intro h
  have hpart : (nan (.made level (indexBoundOfItems level inUse))).indexBound level ≤ v.indexBound level := h.indexBound_le
  have hitem : v.indexBound level ≤ indexBoundOfItems level inUse := indexBound_le_of_mem hv
  have hmark : indexBoundOfItems level inUse < (nan (.made level (indexBoundOfItems level inUse))).indexBound level :=
    Mark.lt_indexBound level _
  omega

end Value

end TemplateEngine

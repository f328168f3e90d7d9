/-
Fresh marks. A `nan` that evaluation makes gets a mark of its own: the level of the scope it is made
in, and an index above those of the same level in all values that are in use meanwhile.
-/
import TemplateEngine.Value.Basic

namespace TemplateEngine

/-- A bound above the index of a mark, where it was made at a level. -/
def Mark.indexBound (level : Nat) : Mark → Nat
  | made l i => if l = level then i + 1 else 0
  | given _ => 0

theorem Mark.lt_indexBound (level i : Nat) : i < (Mark.made level i).indexBound level := by
  simp [Mark.indexBound]

namespace Value

mutual

/-- A bound above the indices of the marks that were made at a level and are found in a value. -/
def indexBound (level : Nat) : Value → Nat
  | nan m => m.indexBound level
  | list items => indexBoundOfItems level items
  | tuple items => indexBoundOfItems level items
  | dict entries => indexBoundOfEntries level entries
  | record fields => indexBoundOfFields level fields
  | _ => 0

/-- The bound of some values. -/
def indexBoundOfItems (level : Nat) : List Value → Nat
  | [] => 0
  | v :: vs => max (indexBound level v) (indexBoundOfItems level vs)

/-- The bound of some entries. -/
def indexBoundOfEntries (level : Nat) : List (Value × Value) → Nat
  | [] => 0
  | (k, v) :: es => max (max (indexBound level k) (indexBound level v)) (indexBoundOfEntries level es)

/-- The bound of some fields. -/
def indexBoundOfFields (level : Nat) : List (String × Value) → Nat
  | [] => 0
  | (_, v) :: fs => max (indexBound level v) (indexBoundOfFields level fs)

end

theorem indexBound_le_of_mem {level : Nat} {v : Value} {vs : List Value} (h : v ∈ vs) :
    v.indexBound level ≤ indexBoundOfItems level vs := by
  induction vs with
  | nil => cases h
  | cons w ws ih =>
    rw [indexBoundOfItems]
    rcases List.mem_cons.1 h with rfl | h
    · exact Nat.le_max_left _ _
    · exact Nat.le_trans (ih h) (Nat.le_max_right _ _)

/-- A value as evaluation gives it to others: an outcome that denotes no number becomes a `nan` of
its own, told apart from those in the values in use. -/
def settle (level : Nat) (inUse : List Value) : Value → Value
  | float x => if x.isNaN then nan (.made level (indexBoundOfItems level inUse)) else float x
  | v => v

end Value

end TemplateEngine

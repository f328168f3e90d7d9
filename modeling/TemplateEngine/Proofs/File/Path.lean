/-
Going along components from different directories. Components climb out of some innermost directories
first, whatever those are called, and go down by names from there; so they lead to one place from two
directories iff these agree above what is climbed.
-/
import Mathlib.Data.List.Induction
import TemplateEngine.File.Path

namespace TemplateEngine.Path

theorem follow_append (directory xs ys : List String) :
    follow directory (xs ++ ys) = follow (follow directory xs) ys := by
  induction xs generalizing directory with
  | nil => rfl
  | cons x xs ih => rw [List.cons_append, follow, follow, ih]

/-- A last component that is a name is the last one of the place. -/
theorem follow_concat {part : String} (h : part ≠ "..") (directory parts : List String) :
    follow directory (parts ++ [part]) = follow directory parts ++ [part] := by
  rw [follow_append, follow, follow, if_neg (by simpa using h)]

/-! ## Climbing -/

/-- One component after others, which climbed `c.1` directories and then went down along `c.2`. -/
def climbStep (c : Nat × List String) (part : String) : Nat × List String :=
  if part = ".." then if c.2 = [] then (c.1 + 1, []) else (c.1, c.2.dropLast)
  else (c.1, c.2 ++ [part])

/-- How many directories components climb, and the names along which they go down from there. -/
def climb (parts : List String) : Nat × List String :=
  parts.foldl climbStep (0, [])

/-- The directory that is left of another one after climbing. -/
def above (n : Nat) (directory : List String) : List String :=
  directory.take (directory.length - n)

@[simp] theorem above_zero (directory : List String) : above 0 directory = directory := by
  rw [above, Nat.sub_zero, List.take_length]

theorem dropLast_above (n : Nat) (directory : List String) :
    (above n directory).dropLast = above (n + 1) directory := by
  rw [above, above, List.dropLast_eq_take, List.take_take, List.length_take]
  congr 1
  omega

/-- Components lead above what they climb and down along the rest. -/
theorem follow_eq (directory parts : List String) :
    follow directory parts = above (climb parts).1 directory ++ (climb parts).2 := by
  induction parts using List.reverseRecOn with
  | nil => simp [follow, climb]
  | append_singleton parts part ih =>
    have hclimb : climb (parts ++ [part]) = climbStep (climb parts) part := by
      rw [climb, List.foldl_append]
      rfl
    rw [follow_append, ih, hclimb, follow, follow, climbStep]
    -- a double dot takes back the last name, or climbs one directory more where there is none
    by_cases hp : part = ".."
    · rw [if_pos (by simpa using hp), if_pos hp]
      by_cases hd : (climb parts).2 = []
      · rw [if_pos hd, hd, List.append_nil, List.append_nil, dropLast_above]
      · rw [if_neg hd, List.dropLast_append_of_ne_nil hd]
    · rw [if_neg (by simpa using hp), if_neg hp, List.append_assoc]

/-- Components lead to one place from two directories iff these agree above what is climbed. -/
theorem follow_eq_follow_iff {a b parts : List String} :
    follow a parts = follow b parts ↔ above (climb parts).1 a = above (climb parts).1 b := by
  rw [follow_eq, follow_eq, List.append_left_inj]

end TemplateEngine.Path

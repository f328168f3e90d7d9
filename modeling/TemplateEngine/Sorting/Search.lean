/-
Searching by comparisons that may fail. Some number of items from a start on have a property and the
others have not; their number is found by leaps that double in width and then by halving the gap. Where
the items lie the other way round, the halves are cut the other way round too.
-/
import TemplateEngine.Fault

namespace TemplateEngine

/-- Whether one item is smaller than another; the question may fail. -/
abbrev Smaller (α : Type) := α → α → Except Fault Bool

namespace Sorting

/-- Whether the items that are counted lie from the first one on or from the last one back. -/
inductive Direction where
  | forward | backward
  deriving DecidableEq, Repr

/-- The middle of the counts from `low` to `high`; of two the one that comes first in the items. -/
def Direction.middle (low high : Nat) : Direction → Nat
  | forward => low + (high - low) / 2
  | backward => high - 1 - (high - low) / 2

/-- How many items have a property, by halving: at least `low` of them, at most `high`. -/
def halve (d : Direction) (has : Nat → Except Fault Bool) (low high : Nat) : Except Fault Nat :=
  if h : low < high then do
    let m := d.middle low high
    have : low ≤ m ∧ m < high := by
      cases d <;> simp only [Direction.middle, m] <;> omega
    if ← has m then halve d has (m + 1) high else halve d has low m
  else return low
  termination_by high - low

/-- Leaps from `next` on over items that have the property: the last one met, and the first one that
has not got it or `count`. -/
def leap (has : Nat → Except Fault Bool) (count last next : Nat) : Except Fault (Nat × Nat) :=
  if next < count then do
    if ← has next then leap has count next (2 * next + 1) else return (last, next)
  else return (last, count)
  termination_by count - next

/-- How many of `count` items have a property. -/
def countLeading (d : Direction) (has : Nat → Except Fault Bool) (count : Nat) : Except Fault Nat := do
  if count = 0 then return 0
  else if ← has 0 then
    let (last, next) ← leap has count 0 1
    halve d has (last + 1) next
  else return 0

/-- The property of an item at a place of a list; there is none beyond its end. -/
def atPlace (xs : List α) (p : α → Except Fault Bool) (i : Nat) : Except Fault Bool :=
  match xs[i]? with
  | some x => p x
  | none => return false

end Sorting

end TemplateEngine

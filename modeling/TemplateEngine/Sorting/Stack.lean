/-
Sorting. The items are cut into runs, which wait on a stack; neighbouring runs are merged in the order
of a balanced tree over the places where they meet. The sort is stable, and a comparison asks whether
the later item is smaller.
-/
import TemplateEngine.Sorting.Merge
import TemplateEngine.Sorting.Run

namespace TemplateEngine

namespace Sorting

/-- A run on the stack: where it starts, its items, and the depth of the place where it meets the run
above it. -/
structure PlacedRun (α : Type) where
  start : Nat
  items : List α
  depth : Nat := 0

/-- In how many halvings of `count` items the midpoints of two neighbouring runs fall apart; `a` and
`b` are twice these midpoints, multiplied by two for each halving before. -/
def depthFrom (count a b halvings : Nat) : Nat :=
  if a < b ∧ a / count = b / count ∧ 0 < count then depthFrom count (2 * a) (2 * b) (halvings + 1)
  else halvings
  termination_by count - (b - a)
  decreasing_by
    have hb := Nat.lt_mul_div_succ b (by omega : 0 < count)
    have ha := Nat.mul_div_le a count
    have hq : a / count = b / count := by omega
    rw [← hq, Nat.mul_add] at hb
    omega

/-- The depth of the place where a run meets the next one. -/
def depthBetween (count start first second : Nat) : Nat :=
  let a := 2 * start + first
  depthFrom count a (a + first + second) 1

/-- Merges the topmost runs while the place between them is deeper than a new one. -/
def mergeDeeper (smaller : Smaller α) (depth : Nat) (top : PlacedRun α) :
    List (PlacedRun α) → Merging (List (PlacedRun α))
  | [] => return [{ top with depth := depth }]
  | below :: stack => do
    if depth < below.depth then
      mergeDeeper smaller depth ⟨below.start, ← mergeRuns smaller below.items top.items, 0⟩ stack
    else return { top with depth := depth } :: below :: stack

/-- Puts a run on the stack. -/
def push (smaller : Smaller α) (count : Nat) (run : PlacedRun α) :
    List (PlacedRun α) → Merging (List (PlacedRun α))
  | [] => return [run]
  | top :: stack => do
    let depth := depthBetween count top.start top.items.length run.items.length
    return run :: (← mergeDeeper smaller depth top stack)

/-- Cuts items into runs and puts them on the stack; `start` is the place of the first one. At most
`fuel` runs are taken. -/
def pushRuns (smaller : Smaller α) (count : Nat) :
    Nat → Nat → List α → List (PlacedRun α) → Merging (List (PlacedRun α))
  | 0, _, _, stack => return stack
  | _, _, [], stack => return stack
  | fuel + 1, start, xs, stack => do
    let (run, rest) ← takeRun smaller (leastLength count) xs
    pushRuns smaller count fuel (start + run.length) rest (← push smaller count ⟨start, run, 0⟩ stack)

/-- Merges all runs on the stack, the topmost ones first, except that a run is not merged with a longer
one while it has a shorter neighbour below. -/
def mergeAll (smaller : Smaller α) : List (PlacedRun α) → Merging (List α)
  | [] => return []
  | [run] => return run.items
  | top :: second :: [] => mergeRuns smaller second.items top.items
  | top :: second :: third :: stack => do
    if third.items.length < top.items.length then
      let run ← mergeRuns smaller third.items second.items
      mergeAll smaller (top :: ⟨third.start, run, third.depth⟩ :: stack)
    else
      let run ← mergeRuns smaller second.items top.items
      mergeAll smaller (⟨second.start, run, second.depth⟩ :: third :: stack)
  termination_by stack => stack.length

end Sorting

/-- The items in order; items that are neither smaller nor greater keep their order. -/
def sorted (smaller : Smaller α) (xs : List α) : Except Fault (List α) :=
  let sort : Sorting.Merging (List α) := do
    Sorting.mergeAll smaller (← Sorting.pushRuns smaller xs.length xs.length 0 xs [])
  sort.run' Sorting.longStretch

/-- The items in falling order; items that are neither smaller nor greater keep their order. -/
def sortedFalling (smaller : Smaller α) (xs : List α) : Except Fault (List α) := do
  return (← sorted smaller xs.reverse).reverse

end TemplateEngine

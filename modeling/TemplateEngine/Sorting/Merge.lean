/-
Merging two sorted runs. Items are taken one by one from the two sides until one of them has won often
in a row; then whole stretches are counted off at once, as long as that pays. How many wins in a row
it takes goes up and down with the success of it, over all merges of a sort.
-/
import TemplateEngine.Sorting.Search

namespace TemplateEngine.Sorting

/-- Parts of a sort; the state is how many wins in a row it takes until stretches are counted off. -/
abbrev Merging := StateT Nat (Except Fault)

/-- The length of a stretch that makes counting off worth while. -/
def longStretch : Nat := 7

/-- A merge under way, from the start of the runs forward or from their end backward: the items left
on the shorter and on the longer side, next one first, and the merged ones, latest one first. -/
structure Merge (α : Type) where
  short : List α
  long : List α
  merged : List α

namespace Merge

/-- Whether nothing is left to compare: the last item of the short side comes after the long side. -/
def finished (m : Merge α) : Bool :=
  m.short.length ≤ 1 || m.long.isEmpty

/-- All items in the order in which they are merged, latest one first, where no more are compared. -/
def result (m : Merge α) : List α :=
  (m.long ++ m.short).reverse ++ m.merged

/-- Moves items of the short side. -/
def moveShort (m : Merge α) (count : Nat) : Merge α :=
  ⟨m.short.drop count, m.long, (m.short.take count).reverse ++ m.merged⟩

/-- Moves items of the long side. -/
def moveLong (m : Merge α) (count : Nat) : Merge α :=
  ⟨m.short, m.long.drop count, (m.long.take count).reverse ++ m.merged⟩

end Merge

/-- Whether an item of the long side goes before one of the short side. -/
abbrev Precedes (α : Type) := α → α → Except Fault Bool

/-- Takes items one by one until a side has won `needed` times in a row or the merge is finished;
`shortWins` and `longWins` are the wins in a row so far. -/
def takeSingly (precedes : Precedes α) (needed shortWins longWins : Nat) (merged : List α) :
    List α → List α → Except Fault (Merge α)
  | s :: t :: short, l :: long => do
    if ← precedes l s then
      if needed ≤ longWins + 1 then return ⟨s :: t :: short, long, l :: merged⟩
      else takeSingly precedes needed 0 (longWins + 1) (l :: merged) (s :: t :: short) long
    else
      if needed ≤ shortWins + 1 then return ⟨t :: short, l :: long, s :: merged⟩
      else takeSingly precedes needed (shortWins + 1) 0 (s :: merged) (t :: short) (l :: long)
  | short, long => return ⟨short, long, merged⟩
  termination_by short long => short.length + long.length

/-- Moves the items of the short side that go before the next one of the long side, and then that one;
also gives the number of the former. -/
def advanceShort (d : Direction) (precedes : Precedes α) (m : Merge α) : Except Fault (Nat × Merge α) := do
  match m.long with
  | [] => return (0, m)
  | l :: _ =>
    let count ← countLeading d (atPlace m.short fun s => not <$> precedes l s) m.short.length
    let m := m.moveShort count
    return (count, if m.finished then m else m.moveLong 1)

/-- Moves the items of the long side that go before the next one of the short side, and then that one;
also gives the number of the former. -/
def advanceLong (d : Direction) (precedes : Precedes α) (m : Merge α) : Except Fault (Nat × Merge α) := do
  match m.short with
  | [] => return (0, m)
  | s :: _ =>
    let count ← countLeading d (atPlace m.long fun l => precedes l s) m.long.length
    let m := m.moveLong count
    return (count, if m.finished then m else m.moveShort 1)

/-- Counts stretches off both sides in turns, as long as that pays. At most `fuel` turns are taken,
each of which moves an item. -/
def takeStretches (d : Direction) (precedes : Precedes α) : Nat → Merge α → Merging (Merge α)
  | 0, m => return m
  | fuel + 1, m => do
    modify fun needed => if 1 < needed then needed - 1 else needed
    let first := match d with | .forward => advanceShort d precedes | .backward => advanceLong d precedes
    let second := match d with | .forward => advanceLong d precedes | .backward => advanceShort d precedes
    let (a, m) ← first m
    if m.finished then return m
    let (b, m) ← second m
    if m.finished then return m
    if longStretch ≤ a || longStretch ≤ b then takeStretches d precedes fuel m
    else
      modify (· + 1)
      return m

/-- Merges until one side is used up. At most `fuel` times stretches are counted off. -/
def mergeSides (d : Direction) (precedes : Precedes α) : Nat → Merge α → Merging (List α)
  | 0, m => return m.result
  | fuel + 1, m => do
    let m ← takeSingly precedes (← get) 0 0 m.merged m.short m.long
    if m.finished then return m.result
    modify (· + 1)
    let m ← takeStretches d precedes (m.short.length + m.long.length) m
    if m.finished then return m.result
    mergeSides d precedes fuel m

/-- Merges the first item of the long side, which is known to go first, and then all others. -/
def startMerge (d : Direction) (precedes : Precedes α) (short long : List α) : Merging (List α) :=
  let m := Merge.moveLong ⟨short, long, []⟩ 1
  if m.finished then return m.result else mergeSides d precedes (short.length + long.length) m

/-- Merges two neighbouring runs. What is in its place already, at the start of the first and at the
end of the second one, is left there; the shorter one of the rests is the short side. -/
def mergeRuns (smaller : Smaller α) (xs ys : List α) : Merging (List α) := do
  match ys with
  | [] => return xs
  | y :: _ =>
    let low ← countLeading .forward (atPlace xs fun x => not <$> smaller y x) xs.length
    let first := (xs.drop low).reverse
    match first with
    | [] => return xs ++ ys
    | x :: _ =>
      let last := ys.reverse
      let high ← countLeading .backward (atPlace last fun z => not <$> smaller z x) last.length
      let second := last.drop high
      let middle ←
        if second.isEmpty then pure first.reverse
        else if first.length ≤ second.length then
          List.reverse <$> startMerge .forward smaller first.reverse second.reverse
        else startMerge .backward (fun l s => smaller s l) second first
      return xs.take low ++ middle ++ (last.take high).reverse

end TemplateEngine.Sorting

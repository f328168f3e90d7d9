/-
Runs: sorted stretches of the items. A run is what is sorted already, a strictly falling stretch being
turned around, and is brought to a least length by putting the items after it into their places.
-/
import TemplateEngine.Sorting.Search

namespace TemplateEngine.Sorting

/-- The length to which short runs are brought: the leading six bits of the number of items, plus one
if a bit is set below them. -/
def leastLength (count : Nat) : Nat :=
  if count < 64 then count
  else
    let shift := Nat.log2 count - 5
    let head := count / Nat.pow 2 shift
    if count % Nat.pow 2 shift = 0 then head else head + 1

/-- Takes the items that continue a stretch; `run` holds it with its last item first. -/
def takeStretch (smaller : Smaller α) (falling : Bool) (last : α) (run : List α) :
    List α → Except Fault (List α × List α)
  | [] => return (run, [])
  | x :: xs => do
    if (← smaller x last) == falling then takeStretch smaller falling x (x :: run) xs
    else return (run, x :: xs)

/-- The sorted stretch at the head of some items, and the others. -/
def takeSorted (smaller : Smaller α) : List α → Except Fault (List α × List α)
  | [] => return ([], [])
  | [x] => return ([x], [])
  | x :: y :: xs => do
    let falling ← smaller y x
    let (run, rest) ← takeStretch smaller falling y [y, x] xs
    return (if falling then run else run.reverse, rest)

/-- Puts an item behind those of a run that it is not smaller than. -/
def putInto (smaller : Smaller α) (run : List α) (x : α) : Except Fault (List α) := do
  let items := run.toArray
  let before (i : Nat) : Except Fault Bool :=
    match items[i]? with
    | some y => not <$> smaller x y
    | none => return false
  let place ← halve .forward before 0 items.size
  return run.take place ++ x :: run.drop place

/-- Takes a run of at least a length, or of all items, off their head. -/
def takeRun (smaller : Smaller α) (least : Nat) (xs : List α) : Except Fault (List α × List α) := do
  let (run, rest) ← takeSorted smaller xs
  let missing := least - run.length
  let run ← (rest.take missing).foldlM (putInto smaller) run
  return (run, rest.drop missing)

end TemplateEngine.Sorting

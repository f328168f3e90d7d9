/-
Sorting looks at items by comparing them only: where items are replaced by others that compare like them, the order that
comes out is the same.
-/
import Mathlib.Control.Basic
import Mathlib.Tactic.SplitIfs
import TemplateEngine.Proofs.Result
import TemplateEngine.Sorting.Stack

namespace TemplateEngine

namespace Sorting

variable {α β : Type} {f : α → β}

theorem atPlace_map {p : α → Except Fault Bool} {p' : β → Except Fault Bool} (h : ∀ x, p' (f x) = p x) (xs : List α) :
    atPlace (xs.map f) p' = atPlace xs p := by
  funext i
  unfold atPlace
  rw [List.getElem?_map]
  cases xs[i]? with
  | none => rfl
  | some x => exact h x

theorem atPlace_map_not {p : α → Except Fault Bool} {p' : β → Except Fault Bool} (h : ∀ x, p' (f x) = p x)
    (xs : List α) : (atPlace (xs.map f) fun y => not <$> p' y) = atPlace xs fun x => not <$> p x := by
  refine atPlace_map (fun x => ?_) xs
  rw [h]

section

variable {smaller : Smaller α} {smaller' : Smaller β} (h : ∀ x y, smaller' (f x) (f y) = smaller x y)

include h

/-! ## Runs -/

theorem takeStretch_map (falling : Bool) (last : α) (run xs : List α) :
    takeStretch smaller' falling (f last) (run.map f) (xs.map f) =
      Prod.map (List.map f) (List.map f) <$> takeStretch smaller falling last run xs := by
  induction xs generalizing last run with
  | nil => rfl
  | cons x xs ih =>
    rw [List.map_cons, takeStretch, takeStretch, h, map_bind]
    refine bind_congr fun b => ?_
    split
    · exact ih x (x :: run)
    · rfl

theorem takeSorted_map (xs : List α) :
    takeSorted smaller' (xs.map f) = Prod.map (List.map f) (List.map f) <$> takeSorted smaller xs := by
  match xs with
  | [] => rfl
  | [x] => rfl
  | x :: y :: xs =>
    rw [List.map_cons, List.map_cons, takeSorted, takeSorted, h, map_bind]
    refine bind_congr fun falling => ?_
    rw [show [f y, f x] = [y, x].map f from rfl, takeStretch_map h, bind_map_left, map_bind]
    refine bind_congr fun p => ?_
    cases falling
    · show Except.ok ((p.1.map f).reverse, p.2.map f) = Except.ok (p.1.reverse.map f, p.2.map f)
      rw [List.map_reverse]
    · rfl

omit h in
theorem putInto_eq (run : List α) (x : α) : putInto smaller run x = do
    let place ← halve .forward (atPlace run fun y => not <$> smaller x y) 0 run.length
    return run.take place ++ x :: run.drop place := by
  unfold putInto
  refine congrArg (fun before => halve .forward before 0 run.length >>= fun place =>
    pure (run.take place ++ x :: run.drop place)) (funext fun i => ?_)
  rw [atPlace, List.getElem?_toArray]
  rfl

theorem putInto_map (run : List α) (x : α) :
    putInto smaller' (run.map f) (f x) = List.map f <$> putInto smaller run x := by
  rw [putInto_eq, putInto_eq, List.length_map, map_bind, atPlace_map_not (h x)]
  refine bind_congr fun place => ?_
  rw [← List.map_take, ← List.map_drop, ← List.map_cons, ← List.map_append]
  rfl

theorem putAll_map (run xs : List α) :
    (xs.map f).foldlM (putInto smaller') (run.map f) = List.map f <$> xs.foldlM (putInto smaller) run := by
  induction xs generalizing run with
  | nil => rfl
  | cons x xs ih =>
    rw [List.map_cons, List.foldlM_cons, List.foldlM_cons, putInto_map h, bind_map_left, map_bind]
    exact bind_congr ih

theorem takeRun_map (least : Nat) (xs : List α) :
    takeRun smaller' least (xs.map f) = Prod.map (List.map f) (List.map f) <$> takeRun smaller least xs := by
  unfold takeRun
  rw [takeSorted_map h, bind_map_left, map_bind]
  refine bind_congr fun p => ?_
  obtain ⟨run, rest⟩ := p
  dsimp only [Prod.map]
  rw [List.length_map, ← List.map_take, putAll_map h, bind_map_left, map_bind]
  refine bind_congr fun run' => ?_
  rw [← List.map_drop]
  rfl

end

/-! ## Merges -/

/-- A merge of other items. -/
def Merge.map (f : α → β) (m : Merge α) : Merge β :=
  ⟨m.short.map f, m.long.map f, m.merged.map f⟩

namespace Merge

variable (f) (m : Merge α)

@[simp] theorem finished_map : (m.map f).finished = m.finished := by
  rw [finished, finished, map, List.length_map, List.isEmpty_map]

@[simp] theorem result_map : (m.map f).result = m.result.map f := by
  simp [result, map, List.map_reverse]

@[simp] theorem moveShort_map (count : Nat) : (m.map f).moveShort count = (m.moveShort count).map f := by
  simp [moveShort, map, List.map_reverse, List.map_take, List.map_drop]

@[simp] theorem moveLong_map (count : Nat) : (m.map f).moveLong count = (m.moveLong count).map f := by
  simp [moveLong, map, List.map_reverse, List.map_take, List.map_drop]

end Merge

section

variable {precedes : Precedes α} {precedes' : Precedes β} (h : ∀ x y, precedes' (f x) (f y) = precedes x y)

include h

theorem takeSingly_map (needed shortWins longWins : Nat) (merged short long : List α) :
    takeSingly precedes' needed shortWins longWins (merged.map f) (short.map f) (long.map f) =
      Merge.map f <$> takeSingly precedes needed shortWins longWins merged short long := by
  induction shortWins, longWins, merged, short, long using takeSingly.induct with
  | case1 shortWins longWins merged s t short l long ihlong ihshort =>
    rw [List.map_cons, List.map_cons, List.map_cons, takeSingly, takeSingly, h, map_bind]
    refine bind_congr fun longFirst => ?_
    cases longFirst with
    | true =>
      rw [if_pos rfl, if_pos rfl]
      split_ifs
      · rfl
      · exact ihlong
    | false =>
      rw [if_neg Bool.false_ne_true, if_neg Bool.false_ne_true]
      split_ifs
      · rfl
      · exact ihshort
  | case2 shortWins longWins merged short long hdone =>
    rw [takeSingly, takeSingly]
    · rfl
    · exact hdone
    · intro s t short' l long' hs hl
      obtain ⟨s, ts, rfl, rfl, hts⟩ := List.map_eq_cons_iff.1 hs
      obtain ⟨t, ts', rfl, -, -⟩ := List.map_eq_cons_iff.1 hts
      obtain ⟨l, ls, rfl, -, -⟩ := List.map_eq_cons_iff.1 hl
      exact hdone _ _ _ _ _ rfl rfl

theorem advanceShort_map (d : Direction) (m : Merge α) :
    advanceShort d precedes' (m.map f) = Prod.map id (Merge.map f) <$> advanceShort d precedes m := by
  unfold advanceShort
  cases hl : m.long with
  | nil =>
    rw [show (m.map f).long = [] by rw [Merge.map, hl, List.map_nil]]
    rfl
  | cons l long =>
    rw [show (m.map f).long = f l :: long.map f by rw [Merge.map, hl, List.map_cons]]
    dsimp only
    rw [show (m.map f).short = m.short.map f from rfl, List.length_map,
      atPlace_map_not (h l), map_bind]
    refine bind_congr fun count => ?_
    rw [Merge.moveShort_map, Merge.finished_map, Merge.moveLong_map, ← apply_ite (Merge.map f)]
    rfl

theorem advanceLong_map (d : Direction) (m : Merge α) :
    advanceLong d precedes' (m.map f) = Prod.map id (Merge.map f) <$> advanceLong d precedes m := by
  unfold advanceLong
  cases hs : m.short with
  | nil =>
    rw [show (m.map f).short = [] by rw [Merge.map, hs, List.map_nil]]
    rfl
  | cons s short =>
    rw [show (m.map f).short = f s :: short.map f by rw [Merge.map, hs, List.map_cons]]
    dsimp only
    rw [show (m.map f).long = m.long.map f from rfl, List.length_map, atPlace_map fun l => h l s, map_bind]
    refine bind_congr fun count => ?_
    rw [Merge.moveLong_map, Merge.finished_map, Merge.moveShort_map, ← apply_ite (Merge.map f)]
    rfl

omit h in
/-- Counting stretches off one side and then the other, and what comes after it as long as that pays. -/
def turn (first second : Merge α → Except Fault (Nat × Merge α)) (again : Merge α → Merging (Merge α)) (m : Merge α) :
    Merging (Merge α) := do
  modify fun needed => if 1 < needed then needed - 1 else needed
  let (a, m) ← first m
  if m.finished then return m
  let (b, m) ← second m
  if m.finished then return m
  if longStretch ≤ a || longStretch ≤ b then again m
  else
    modify (· + 1)
    return m

omit h in
theorem turn_map {first second : Merge α → Except Fault (Nat × Merge α)}
    {first' second' : Merge β → Except Fault (Nat × Merge β)} {again : Merge α → Merging (Merge α)}
    {again' : Merge β → Merging (Merge β)} (hfirst : ∀ m, first' (m.map f) = Prod.map id (Merge.map f) <$> first m)
    (hsecond : ∀ m, second' (m.map f) = Prod.map id (Merge.map f) <$> second m)
    (hagain : ∀ m, again' (m.map f) = Merge.map f <$> again m) (m : Merge α) :
    turn first' second' again' (m.map f) = Merge.map f <$> turn first second again m := by
  unfold turn
  rw [map_bind]
  refine bind_congr fun _ => ?_
  rw [hfirst, liftM_map, bind_map_left, map_bind]
  refine bind_congr fun p => ?_
  obtain ⟨a, m⟩ := p
  dsimp only [Prod.map, id]
  rw [Merge.finished_map]
  split_ifs
  · rw [map_pure]
  · rw [hsecond, liftM_map, bind_map_left, map_bind]
    refine bind_congr fun p => ?_
    obtain ⟨b, m⟩ := p
    dsimp only [Prod.map, id]
    simp only [Merge.finished_map]
    split_ifs
    · rw [map_pure]
    · exact hagain m
    · rw [map_bind]
      exact bind_congr fun _ => (map_pure _ _).symm

theorem takeStretches_map (d : Direction) (fuel : Nat) (m : Merge α) :
    takeStretches d precedes' fuel (m.map f) = Merge.map f <$> takeStretches d precedes fuel m := by
  induction fuel generalizing m with
  | zero => rfl
  | succ fuel ih =>
    cases d with
    | forward => exact turn_map (advanceShort_map h .forward) (advanceLong_map h .forward) ih m
    | backward => exact turn_map (advanceLong_map h .backward) (advanceShort_map h .backward) ih m

theorem mergeSides_map (d : Direction) (fuel : Nat) (m : Merge α) :
    mergeSides d precedes' fuel (m.map f) = List.map f <$> mergeSides d precedes fuel m := by
  induction fuel generalizing m with
  | zero =>
    rw [mergeSides, mergeSides, Merge.result_map, map_pure]
  | succ fuel ih =>
    rw [mergeSides, mergeSides, map_bind]
    refine bind_congr fun needed => ?_
    rw [show takeSingly precedes' needed 0 0 (m.map f).merged (m.map f).short (m.map f).long =
      Merge.map f <$> takeSingly precedes needed 0 0 m.merged m.short m.long from takeSingly_map h ..,
      liftM_map, bind_map_left, map_bind]
    refine bind_congr fun m => ?_
    rw [Merge.finished_map, Merge.result_map]
    split_ifs
    · rw [map_pure]
    · rw [map_bind]
      refine bind_congr fun _ => ?_
      rw [takeStretches_map h, bind_map_left, map_bind, show (m.map f).short.length = m.short.length from
        List.length_map .., show (m.map f).long.length = m.long.length from List.length_map ..]
      refine bind_congr fun m => ?_
      rw [Merge.finished_map, Merge.result_map]
      split_ifs
      · rw [map_pure]
      · exact ih m

theorem startMerge_map (d : Direction) (short long : List α) :
    startMerge d precedes' (short.map f) (long.map f) = List.map f <$> startMerge d precedes short long := by
  unfold startMerge
  dsimp only
  rw [show (⟨short.map f, long.map f, []⟩ : Merge β) = Merge.map f ⟨short, long, []⟩ from rfl, Merge.moveLong_map,
    Merge.finished_map, Merge.result_map, List.length_map, List.length_map]
  split_ifs
  · rw [map_pure]
  · exact mergeSides_map h d _ _

end

/-! ## Stacks of runs -/

section

variable {smaller : Smaller α} {smaller' : Smaller β} (h : ∀ x y, smaller' (f x) (f y) = smaller x y)

include h

theorem mergeRuns_map (xs ys : List α) :
    mergeRuns smaller' (xs.map f) (ys.map f) = List.map f <$> mergeRuns smaller xs ys := by
  cases ys with
  | nil => rfl
  | cons y ys =>
    rw [List.map_cons, mergeRuns, mergeRuns, atPlace_map_not (h y), List.length_map, map_bind]
    refine bind_congr fun low => ?_
    rw [← List.map_drop, ← List.map_reverse]
    cases (xs.drop low).reverse with
    | nil =>
      rw [List.map_nil]
      dsimp only
      rw [← List.map_cons, ← List.map_append, map_pure]
    | cons x first =>
      have hplace (zs : List α) : (atPlace (zs.map f) fun z => not <$> smaller' z (f x)) =
          atPlace zs fun z => not <$> smaller z x :=
        atPlace_map_not (fun z => h z x) zs
      have hjoin (low high : Nat) (middle last : List α) :
          (pure ((xs.map f).take low ++ middle.map f ++ ((last.map f).take high).reverse) : Merging (List β)) =
            List.map f <$> pure (xs.take low ++ middle ++ (last.take high).reverse) := by
        rw [map_pure, List.map_append, List.map_append, List.map_take, List.map_reverse, List.map_take]
      rw [List.map_cons]
      dsimp only
      rw [← List.map_cons, ← List.map_cons, ← List.map_reverse, hplace, List.length_map, map_bind]
      refine bind_congr fun high => ?_
      simp only [← List.map_drop, List.isEmpty_map, List.length_map]
      split_ifs
      · rw [pure_bind, pure_bind, ← List.map_reverse]
        exact hjoin ..
      · rw [← List.map_reverse, ← List.map_reverse, startMerge_map h, map_bind, bind_map_left, bind_map_left, bind_map_left]
        refine bind_congr fun middle => ?_
        rw [← List.map_reverse]
        exact hjoin ..
      · rw [startMerge_map (fun l s => h s l), map_bind, bind_map_left]
        exact bind_congr fun middle => hjoin ..

end

/-- A run of other items. -/
def PlacedRun.map (f : α → β) (r : PlacedRun α) : PlacedRun β :=
  ⟨r.start, r.items.map f, r.depth⟩

section

variable {smaller : Smaller α} {smaller' : Smaller β} (h : ∀ x y, smaller' (f x) (f y) = smaller x y)

include h

theorem mergeItems_map (first second : PlacedRun α) :
    mergeRuns smaller' (first.map f).items (second.map f).items = List.map f <$> mergeRuns smaller first.items second.items :=
  mergeRuns_map h first.items second.items

theorem mergeDeeper_map (depth : Nat) (top : PlacedRun α) (stack : List (PlacedRun α)) :
    mergeDeeper smaller' depth (top.map f) (stack.map (PlacedRun.map f)) =
      List.map (PlacedRun.map f) <$> mergeDeeper smaller depth top stack := by
  induction stack generalizing top with
  | nil =>
    rw [List.map_nil, mergeDeeper, mergeDeeper, map_pure]
    rfl
  | cons below stack ih =>
    rw [List.map_cons, mergeDeeper, mergeDeeper, mergeItems_map h, show (below.map f).depth = below.depth from rfl]
    split_ifs
    · rw [bind_map_left, map_bind]
      exact bind_congr fun run => ih ⟨below.start, run, 0⟩
    · rw [map_pure]
      rfl

theorem push_map (count : Nat) (run : PlacedRun α) (stack : List (PlacedRun α)) :
    push smaller' count (run.map f) (stack.map (PlacedRun.map f)) =
      List.map (PlacedRun.map f) <$> push smaller count run stack := by
  cases stack with
  | nil =>
    rw [List.map_nil, push, push, map_pure]
    rfl
  | cons top stack =>
    rw [List.map_cons, push, push, show (top.map f).items.length = top.items.length from List.length_map ..,
      show (run.map f).items.length = run.items.length from List.length_map ..,
      show (top.map f).start = top.start from rfl, mergeDeeper_map h, bind_map_left, map_bind]
    refine bind_congr fun merged => ?_
    rw [map_pure]
    rfl

theorem pushRuns_map (count fuel start : Nat) (xs : List α) (stack : List (PlacedRun α)) :
    pushRuns smaller' count fuel start (xs.map f) (stack.map (PlacedRun.map f)) =
      List.map (PlacedRun.map f) <$> pushRuns smaller count fuel start xs stack := by
  induction fuel generalizing start xs stack with
  | zero => rw [pushRuns, pushRuns, map_pure]
  | succ fuel ih =>
    cases xs with
    | nil => rw [List.map_nil, pushRuns, pushRuns, map_pure] <;> nofun
    | cons x xs =>
      rw [List.map_cons, pushRuns, pushRuns, ← List.map_cons, takeRun_map h, liftM_map, bind_map_left, map_bind]
      · refine bind_congr fun p => ?_
        obtain ⟨run, rest⟩ := p
        dsimp only [Prod.map]
        rw [show (⟨start, run.map f, 0⟩ : PlacedRun β) = PlacedRun.map f ⟨start, run, 0⟩ from rfl, push_map h,
          bind_map_left, map_bind, List.length_map]
        exact bind_congr fun stack => ih ..
      · nofun
      · nofun

theorem mergeAll_map (stack : List (PlacedRun α)) :
    mergeAll smaller' (stack.map (PlacedRun.map f)) = List.map f <$> mergeAll smaller stack := by
  have hshorter (a b : PlacedRun α) : (a.map f).items.length < (b.map f).items.length ↔ a.items.length < b.items.length := by
    rw [PlacedRun.map, PlacedRun.map, List.length_map, List.length_map]
  induction stack using mergeAll.induct with
  | case1 =>
    rw [List.map_nil, mergeAll, mergeAll, map_pure]
    rfl
  | case2 run =>
    rw [List.map_cons, List.map_nil, mergeAll, mergeAll, map_pure]
    rfl
  | case3 top second =>
    rw [List.map_cons, List.map_cons, List.map_nil, mergeAll, mergeAll]
    exact mergeItems_map h second top
  | case4 top second third stack hlong ih =>
    rw [List.map_cons, List.map_cons, List.map_cons, mergeAll, mergeAll, if_pos hlong, if_pos ((hshorter third top).2 hlong),
      mergeItems_map h, bind_map_left, map_bind]
    exact bind_congr ih
  | case5 top second third stack hlong ih =>
    rw [List.map_cons, List.map_cons, List.map_cons, mergeAll, mergeAll, if_neg hlong, if_neg (mt (hshorter third top).1 hlong),
      mergeItems_map h, bind_map_left, map_bind]
    exact bind_congr ih

end

end Sorting

section

variable {α β : Type} {f : α → β} {smaller : Smaller α} {smaller' : Smaller β}

/-- Items that compare like others come out in the order of the others. -/
theorem sorted_map (h : ∀ x y, smaller' (f x) (f y) = smaller x y) (xs : List α) :
    sorted smaller' (xs.map f) = List.map f <$> sorted smaller xs := by
  have hsort : (Sorting.pushRuns smaller' xs.length xs.length 0 (xs.map f) [] >>= Sorting.mergeAll smaller') =
      List.map f <$> (Sorting.pushRuns smaller xs.length xs.length 0 xs [] >>= Sorting.mergeAll smaller) := by
    rw [← List.map_nil, Sorting.pushRuns_map h, bind_map_left, map_bind]
    exact bind_congr fun stack => Sorting.mergeAll_map h stack
  unfold sorted
  dsimp only
  rw [List.length_map, hsort, StateT.run'_eq, StateT.run'_eq, StateT.run_map, Functor.map_map, Functor.map_map]

theorem sortedFalling_map (h : ∀ x y, smaller' (f x) (f y) = smaller x y) (xs : List α) :
    sortedFalling smaller' (xs.map f) = List.map f <$> sortedFalling smaller xs := by
  rw [sortedFalling, sortedFalling, ← List.map_reverse, sorted_map h, bind_map_left, map_bind]
  refine bind_congr fun ys => ?_
  rw [map_pure, List.map_reverse]

end

end TemplateEngine

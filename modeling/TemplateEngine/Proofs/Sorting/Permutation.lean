/-
What a sort gives: the items in another order, whatever the comparisons answer; or the fault of a comparison. Only which
items stretches are cut off at depends on the answers, and each part of the algorithm keeps the items that it moves.
-/
import Mathlib.Data.List.Basic
import TemplateEngine.Proofs.Sorting.Natural

namespace TemplateEngine

namespace Sorting

variable {α : Type} {E : Fault → Prop}

/-! ## Counts -/

section

variable {has : Nat → Except Fault Bool} (h : ∀ i, Answered E (has i))

include h

theorem answered_halve (d : Direction) (low high : Nat) : Answered E (halve d has low high) := by
  induction low, high using halve.induct (d := d) with
  | case1 low high hlt m hm ihfirst ihsecond =>
    rw [halve, dif_pos hlt]
    refine (h m).bind fun b _ => ?_
    cases b with
    | true => exact ihfirst
    | false => exact ihsecond
  | case2 low high hge =>
    rw [halve, dif_neg hge]
    exact .ok trivial

theorem answered_leap (count last next : Nat) : Answered E (leap has count last next) := by
  induction last, next using leap.induct count with
  | case1 last next hlt ih =>
    rw [leap, if_pos hlt]
    refine (h next).bind fun b _ => ?_
    cases b with
    | true => exact ih
    | false => exact .ok trivial
  | case2 last next hge =>
    rw [leap, if_neg hge]
    exact .ok trivial

theorem answered_countLeading (d : Direction) (count : Nat) : Answered E (countLeading d has count) := by
  unfold countLeading
  split
  · exact .ok trivial
  · refine (h 0).bind fun b _ => ?_
    cases b with
    | true => exact (answered_leap h count 0 1).bind fun p _ => answered_halve h d (p.1 + 1) p.2
    | false => exact .ok trivial

end

theorem answered_atPlace {p : α → Except Fault Bool} (h : ∀ x, Answered E (p x)) (xs : List α) (i : Nat) :
    Answered E (atPlace xs p i) := by
  unfold atPlace
  cases xs[i]? with
  | none => exact .ok trivial
  | some x => exact h x

theorem answered_not {r : Except Fault Bool} (h : Answered E r) : Answered E (not <$> r) :=
  h.map fun _ _ => trivial

/-! ## Runs -/

section

variable {smaller : Smaller α} (h : ∀ x y, Answered E (smaller x y))

include h

theorem takeStretch_perm (falling : Bool) (last : α) (run xs : List α) :
    Yields E (fun r => (r.1 ++ r.2).Perm (run ++ xs) ∧ run.length ≤ r.1.length)
      (takeStretch smaller falling last run xs) := by
  induction xs generalizing last run with
  | nil => exact .ok ⟨.refl _, Nat.le_refl _⟩
  | cons x xs ih =>
    rw [takeStretch]
    refine (h x last).bind fun b _ => ?_
    split
    · exact (ih x (x :: run)).mono fun r hr => ⟨hr.1.trans List.perm_middle.symm, Nat.le_of_succ_le hr.2⟩
    · exact .ok ⟨.refl _, Nat.le_refl _⟩

theorem takeSorted_perm (xs : List α) :
    Yields E (fun r => (r.1 ++ r.2).Perm xs ∧ (xs ≠ [] → 0 < r.1.length)) (takeSorted smaller xs) := by
  match xs with
  | [] => exact .ok ⟨.refl _, fun hne => absurd rfl hne⟩
  | [x] => exact .ok ⟨.refl _, fun _ => Nat.one_pos⟩
  | x :: y :: xs =>
    rw [takeSorted]
    refine (h y x).bind fun falling _ => (takeStretch_perm h falling y [y, x] xs).bind fun r hr => ?_
    have hswap : ([y, x] ++ xs).Perm (x :: y :: xs) := .swap x y xs
    have hlength : 0 < r.1.length := Nat.lt_of_lt_of_le Nat.two_pos hr.2
    cases falling with
    | true => exact .ok ⟨hr.1.trans hswap, fun _ => hlength⟩
    | false =>
      refine .ok ⟨((r.1.reverse_perm.append_right r.2).trans hr.1).trans hswap, fun _ => ?_⟩
      exact Nat.lt_of_lt_of_eq hlength List.length_reverse.symm

theorem putInto_perm (run : List α) (x : α) : Yields E (·.Perm (x :: run)) (putInto smaller run x) := by
  unfold putInto
  refine (answered_halve (fun i => ?_) .forward 0 run.toArray.size).bind fun place _ => ?_
  · cases run.toArray[i]? with
    | none => exact .ok trivial
    | some y => exact answered_not (h x y)
  · refine .ok (List.perm_middle.trans ?_)
    rw [List.take_append_drop]

theorem putAll_perm (run xs : List α) : Yields E (·.Perm (run ++ xs)) (xs.foldlM (putInto smaller) run) := by
  induction xs generalizing run with
  | nil =>
    rw [List.append_nil]
    exact .ok (.refl _)
  | cons x xs ih =>
    rw [List.foldlM_cons]
    refine (putInto_perm h run x).bind fun run' hrun => (ih run').mono fun r hr => ?_
    exact (hr.trans (hrun.append_right xs)).trans List.perm_middle.symm

/-- A run takes at least one item. -/
theorem takeRun_perm (least : Nat) (xs : List α) :
    Yields E (fun r => (r.1 ++ r.2).Perm xs ∧ (xs ≠ [] → r.2.length < xs.length)) (takeRun smaller least xs) := by
  unfold takeRun
  refine (takeSorted_perm h xs).bind fun r hr => ?_
  refine (putAll_perm h r.1 (r.2.take (least - r.1.length))).bind fun run hrun => ?_
  have hperm : (run ++ r.2.drop (least - r.1.length)).Perm xs := by
    refine (hrun.append_right _).trans ?_
    rw [List.append_assoc, List.take_append_drop]
    exact hr.1
  refine .ok ⟨hperm, fun hne => ?_⟩
  have hlength := hperm.length_eq
  have hrunLength := hrun.length_eq
  have hpos := hr.2 hne
  rw [List.length_append] at hlength hrunLength
  dsimp only
  omega

end

/-! ## Merges -/

namespace Merge

/-- The items of a merge. -/
def items (m : Merge α) : List α :=
  m.short ++ (m.long ++ m.merged)

theorem result_perm (m : Merge α) : m.result.Perm m.items := by
  unfold result items
  rw [← List.append_assoc]
  exact ((List.reverse_perm _).trans List.perm_append_comm).append_right m.merged

/-- Items that are moved behind the others, the last one first. -/
theorem move_perm (xs ys : List α) (count : Nat) :
    (xs.drop count ++ ((xs.take count).reverse ++ ys)).Perm (xs ++ ys) := by
  refine (List.perm_append_comm_assoc _ _ _).trans (((xs.take count).reverse_perm.append_right _).trans ?_)
  rw [← List.append_assoc, List.take_append_drop]

theorem moveShort_perm (m : Merge α) (count : Nat) : (m.moveShort count).items.Perm m.items :=
  ((List.perm_append_comm_assoc m.long _ m.merged).append_left _).trans (move_perm m.short _ count)

theorem moveLong_perm (m : Merge α) (count : Nat) : (m.moveLong count).items.Perm m.items :=
  (move_perm m.long m.merged count).append_left m.short

end Merge

/-- A condition on both outcomes of a part of a sort, however many wins in a row it takes. -/
def Gives {β : Type} (E : Fault → Prop) (Q : β → Prop) (part : Merging β) : Prop :=
  ∀ needed, Yields E (fun r => Q r.1) (part.run needed)

namespace Gives

variable {β γ : Type} {P : β → Prop} {Q : γ → Prop}

theorem pure {b : β} (h : P b) : Gives E P (pure b : Merging β) :=
  fun _ => .ok h

theorem lift {r : Except Fault β} (h : Yields E P r) : Gives E P (liftM r : Merging β) :=
  fun _ => h.map fun _ hb => hb

theorem bind {part : Merging β} {f : β → Merging γ} (h : Gives E P part) (hf : ∀ b, P b → Gives E Q (f b)) :
    Gives E Q (part >>= f) :=
  fun needed => (h needed).bind fun r hr => hf r.1 hr r.2

theorem map {part : Merging β} {f : β → γ} (h : Gives E P part) (hf : ∀ b, P b → Q (f b)) : Gives E Q (f <$> part) :=
  fun needed => (h needed).map fun r hr => hf r.1 hr

theorem mono {P' : β → Prop} {part : Merging β} (h : Gives E P part) (hP : ∀ b, P b → P' b) : Gives E P' part :=
  fun needed => (h needed).mono fun r => hP r.1

theorem modify (f : Nat → Nat) : Gives E (fun _ => True) (modify f : Merging Unit) :=
  fun _ => .ok trivial

theorem get : Gives E (fun _ => True) (get : Merging Nat) :=
  fun _ => .ok trivial

end Gives

section

variable {precedes : Precedes α} (h : ∀ x y, Answered E (precedes x y))

include h

theorem takeSingly_perm (needed shortWins longWins : Nat) (merged short long : List α) :
    Yields E (·.items.Perm (Merge.items ⟨short, long, merged⟩))
      (takeSingly precedes needed shortWins longWins merged short long) := by
  induction shortWins, longWins, merged, short, long using takeSingly.induct with
  | case1 shortWins longWins merged s t short l long ihlong ihshort =>
    rw [takeSingly]
    refine (h l s).bind fun longFirst _ => ?_
    have hlong := Merge.moveLong_perm ⟨s :: t :: short, l :: long, merged⟩ 1
    have hshort := Merge.moveShort_perm ⟨s :: t :: short, l :: long, merged⟩ 1
    cases longFirst with
    | true =>
      rw [if_pos rfl]
      split
      · exact .ok hlong
      · exact ihlong.mono fun m hm => hm.trans hlong
    | false =>
      rw [if_neg Bool.false_ne_true]
      split
      · exact .ok hshort
      · exact ihshort.mono fun m hm => hm.trans hshort
  | case2 shortWins longWins merged short long hdone =>
    rw [takeSingly]
    · exact .ok (.refl _)
    · exact hdone

theorem advanceShort_perm (d : Direction) (m : Merge α) :
    Yields E (·.2.items.Perm m.items) (advanceShort d precedes m) := by
  unfold advanceShort
  split
  · exact .ok (.refl _)
  · rename_i l long hl
    refine (answered_countLeading (answered_atPlace (fun s => answered_not (h l s)) _) d _).bind fun count _ => ?_
    dsimp only
    split
    · exact .ok (m.moveShort_perm count)
    · exact .ok ((Merge.moveLong_perm _ 1).trans (m.moveShort_perm count))

theorem advanceLong_perm (d : Direction) (m : Merge α) :
    Yields E (·.2.items.Perm m.items) (advanceLong d precedes m) := by
  unfold advanceLong
  split
  · exact .ok (.refl _)
  · rename_i s short hs
    refine (answered_countLeading (answered_atPlace (fun l => h l s) _) d _).bind fun count _ => ?_
    dsimp only
    split
    · exact .ok (m.moveLong_perm count)
    · exact .ok ((Merge.moveShort_perm _ 1).trans (m.moveLong_perm count))

omit h in
theorem turn_perm {first second : Merge α → Except Fault (Nat × Merge α)} {again : Merge α → Merging (Merge α)}
    (hfirst : ∀ m, Yields E (·.2.items.Perm m.items) (first m))
    (hsecond : ∀ m, Yields E (·.2.items.Perm m.items) (second m))
    (hagain : ∀ m, Gives E (·.items.Perm m.items) (again m)) (m : Merge α) :
    Gives E (·.items.Perm m.items) (turn first second again m) := by
  unfold turn
  refine (Gives.modify _).bind fun _ _ => (Gives.lift (hfirst m)).bind fun r hr => ?_
  obtain ⟨a, m₁⟩ := r
  dsimp only at hr ⊢
  split_ifs
  · exact .pure hr
  · refine (Gives.lift (hsecond m₁)).bind fun r hr' => ?_
    obtain ⟨b, m₂⟩ := r
    dsimp only at hr' ⊢
    split_ifs
    · exact .pure (hr'.trans hr)
    · exact (hagain m₂).mono fun _ hm => hm.trans (hr'.trans hr)
    · exact (Gives.modify _).bind fun _ _ => .pure (hr'.trans hr)

theorem takeStretches_perm (d : Direction) (fuel : Nat) (m : Merge α) :
    Gives E (·.items.Perm m.items) (takeStretches d precedes fuel m) := by
  induction fuel generalizing m with
  | zero => exact .pure (.refl _)
  | succ fuel ih =>
    cases d with
    | forward => exact turn_perm (advanceShort_perm h .forward) (advanceLong_perm h .forward) ih m
    | backward => exact turn_perm (advanceLong_perm h .backward) (advanceShort_perm h .backward) ih m

theorem mergeSides_perm (d : Direction) (fuel : Nat) (m : Merge α) :
    Gives E (·.Perm m.items) (mergeSides d precedes fuel m) := by
  induction fuel generalizing m with
  | zero => exact .pure m.result_perm
  | succ fuel ih =>
    rw [mergeSides]
    refine Gives.get.bind fun needed _ => ?_
    refine (Gives.lift (takeSingly_perm h needed 0 0 m.merged m.short m.long)).bind fun m₁ hm₁ => ?_
    split
    · exact .pure (m₁.result_perm.trans hm₁)
    · refine (Gives.modify _).bind fun _ _ => (takeStretches_perm h d _ m₁).bind fun m₂ hm₂ => ?_
      split
      · exact .pure (m₂.result_perm.trans (hm₂.trans hm₁))
      · exact (ih m₂).mono fun _ hr => hr.trans (hm₂.trans hm₁)

theorem startMerge_perm (d : Direction) (short long : List α) :
    Gives E (·.Perm (short ++ long)) (startMerge d precedes short long) := by
  have hstart : (Merge.moveLong ⟨short, long, []⟩ 1).items.Perm (short ++ long) := by
    have hmoved := Merge.moveLong_perm ⟨short, long, []⟩ 1
    rwa [show Merge.items ⟨short, long, []⟩ = short ++ (long ++ []) from rfl, List.append_nil] at hmoved
  unfold startMerge
  dsimp only
  split
  · exact .pure ((Merge.result_perm _).trans hstart)
  · exact (mergeSides_perm h d _ _).mono fun _ hr => hr.trans hstart

end

/-! ## Stacks of runs -/

section

variable {smaller : Smaller α} (h : ∀ x y, Answered E (smaller x y))

include h

theorem mergeRuns_perm (xs ys : List α) : Gives E (·.Perm (xs ++ ys)) (mergeRuns smaller xs ys) := by
  unfold mergeRuns
  split
  · rw [List.append_nil]
    exact .pure (.refl _)
  · rename_i y ys
    refine (Gives.lift (answered_countLeading (answered_atPlace (fun x => answered_not (h y x)) _) _ _)).bind
      fun low _ => ?_
    dsimp only
    split
    · exact .pure (.refl _)
    · rename_i x first hfirst
      refine (Gives.lift (answered_countLeading (answered_atPlace (fun z => answered_not (h z x)) _) _ _)).bind
        fun high _ => ?_
      have hlast : ((y :: ys).reverse.drop high ++ ((y :: ys).reverse.take high).reverse).Perm (y :: ys) := by
        have hmoved := Merge.move_perm (y :: ys).reverse [] high
        rw [List.append_nil, List.append_nil] at hmoved
        exact hmoved.trans (List.reverse_perm _)
      have hjoin (middle : List α) (hmiddle : middle.Perm (xs.drop low ++ (y :: ys).reverse.drop high)) :
          (xs.take low ++ middle ++ ((y :: ys).reverse.take high).reverse).Perm (xs ++ y :: ys) := by
        refine ((hmiddle.append_left _).append_right _).trans ?_
        rw [← List.append_assoc, List.take_append_drop, List.append_assoc]
        exact hlast.append_left xs
      have hfront : (xs.drop low).reverse.Perm (xs.drop low) := List.reverse_perm _
      split_ifs with hempty hshorter
      · refine .pure (hjoin _ ?_)
        rw [List.isEmpty_iff.1 hempty, List.append_nil, List.reverse_reverse]
      · refine ((startMerge_perm h .forward _ _).map fun middle hm => ?_).bind fun middle hm => .pure (hjoin middle hm)
        rw [List.reverse_reverse] at hm
        exact (List.reverse_perm _).trans (hm.trans ((List.reverse_perm _).append_left _))
      · refine (startMerge_perm (fun l s => h s l) .backward _ _).bind fun middle hm => .pure (hjoin middle ?_)
        exact hm.trans (List.perm_append_comm.trans (hfront.append_right _))

/-- The items of a stack of runs. -/
def stacked (stack : List (PlacedRun α)) : List α :=
  stack.flatMap (·.items)

theorem mergeDeeper_perm (depth : Nat) (top : PlacedRun α) (stack : List (PlacedRun α)) :
    Gives E (stacked · |>.Perm (top.items ++ stacked stack)) (mergeDeeper smaller depth top stack) := by
  induction stack generalizing top with
  | nil => exact .pure (.refl _)
  | cons below stack ih =>
    rw [mergeDeeper]
    split
    · refine (mergeRuns_perm h below.items top.items).bind fun run hrun => ?_
      refine (ih ⟨below.start, run, 0⟩).mono fun r hr => hr.trans ?_
      refine (hrun.append_right _).trans ?_
      rw [List.append_assoc]
      exact List.perm_append_comm_assoc below.items top.items (stacked stack)
    · exact .pure (.refl _)

theorem push_perm (count : Nat) (run : PlacedRun α) (stack : List (PlacedRun α)) :
    Gives E (stacked · |>.Perm (run.items ++ stacked stack)) (push smaller count run stack) := by
  cases stack with
  | nil => exact .pure (.refl _)
  | cons top stack =>
    rw [push]
    exact (mergeDeeper_perm h _ top stack).bind fun merged hm => .pure (hm.append_left run.items)

/-- The fuel is enough: each run takes an item. -/
theorem pushRuns_perm (count fuel start : Nat) (xs : List α) (stack : List (PlacedRun α)) (hfuel : xs.length ≤ fuel) :
    Gives E (stacked · |>.Perm (xs ++ stacked stack)) (pushRuns smaller count fuel start xs stack) := by
  induction fuel generalizing start xs stack with
  | zero =>
    rw [List.eq_nil_of_length_eq_zero (Nat.le_zero.1 hfuel), pushRuns]
    exact .pure (.refl _)
  | succ fuel ih =>
    cases xs with
    | nil =>
      rw [pushRuns]
      · exact .pure (.refl _)
      · intro h
        cases h
    | cons x xs =>
      rw [pushRuns]
      · refine (Gives.lift (takeRun_perm h _ _)).bind fun r hr => (push_perm h count ⟨start, r.1, 0⟩ stack).bind
          fun stack' hstack => ?_
        have hlength := Nat.le_of_lt_succ (Nat.lt_of_lt_of_le (hr.2 (List.cons_ne_nil x xs)) hfuel)
        refine (ih (start + r.1.length) r.2 stack' hlength).mono fun s hs => hs.trans ?_
        refine (hstack.append_left r.2).trans ((List.perm_append_comm_assoc _ _ _).trans ?_)
        rw [← List.append_assoc]
        exact hr.1.append_right _
      · intro h
        cases h

theorem mergeAll_perm (stack : List (PlacedRun α)) : Gives E (·.Perm (stacked stack)) (mergeAll smaller stack) := by
  induction stack using mergeAll.induct with
  | case1 =>
    rw [mergeAll]
    exact .pure (.refl _)
  | case2 run =>
    rw [mergeAll, stacked, List.flatMap_singleton]
    exact .pure (.refl _)
  | case3 top second =>
    rw [mergeAll]
    refine (mergeRuns_perm h second.items top.items).mono fun r hr => hr.trans ?_
    rw [stacked, List.flatMap_cons, List.flatMap_singleton]
    exact List.perm_append_comm
  | case4 top second third stack hlong ih =>
    rw [mergeAll, if_pos hlong]
    refine (mergeRuns_perm h third.items second.items).bind fun run hrun => ?_
    refine (ih run).mono fun r hr => hr.trans ?_
    simp only [stacked, List.flatMap_cons]
    rw [← List.append_assoc second.items]
    exact ((hrun.trans List.perm_append_comm).append_right _).append_left _
  | case5 top second third stack hlong ih =>
    rw [mergeAll, if_neg hlong]
    refine (mergeRuns_perm h second.items top.items).bind fun run hrun => ?_
    refine (ih run).mono fun r hr => hr.trans ?_
    simp only [stacked, List.flatMap_cons]
    rw [← List.append_assoc top.items]
    exact (hrun.trans List.perm_append_comm).append_right _

end

end Sorting

/-- A sort gives the items in another order, or the fault of a comparison. -/
theorem sorted_perm {α : Type} {E : Fault → Prop} {smaller : Smaller α}
    (h : ∀ x y, Answered E (smaller x y)) (xs : List α) : Yields E (·.Perm xs) (sorted smaller xs) := by
  have hsort : Sorting.Gives E (·.Perm xs)
      (Sorting.pushRuns smaller xs.length xs.length 0 xs [] >>= Sorting.mergeAll smaller) := by
    refine (Sorting.pushRuns_perm h xs.length xs.length 0 xs [] (Nat.le_refl _)).bind fun stack hstack => ?_
    refine (Sorting.mergeAll_perm h stack).mono fun ys hys => hys.trans (hstack.trans ?_)
    rw [Sorting.stacked, List.flatMap_nil, List.append_nil]
  exact (hsort Sorting.longStretch).map fun _ hys => hys

end TemplateEngine

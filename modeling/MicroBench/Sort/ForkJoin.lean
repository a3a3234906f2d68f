import MicroBench.Sort.Sequential

/-! # Fork-join merge sort

  The two halves of a long range can be sorted independently: each one owns its part of the values
  and one of the two scratch buffers. Once both are done, the buffers are free again and the halves
  are merged. Ranges shorter than `minForkLen` are sorted sequentially.

  Nothing fixes which half runs first, so the sort takes a `Schedule` that decides it at every
  fork. Comparators with a memory can tell the schedules apart; the sorted values cannot, as long
  as the comparator's answers do not change.

  - `forkSort` sorts a slice with a left and a right buffer.
  - `ownedSort` sorts a slice with one buffer as long as the slice, which it splits in two.
  - `ForkJoin.sortRangeBy` and `ForkJoin.sortBy` are the entries, with the same checks as the
    sequential sort.
-/

namespace MicroBench

variable {σ α : Type}

/-- Shorter ranges are sorted sequentially: forking would cost more than it saves. -/
def minForkLen : Nat := 4096

/-- Tells which half runs first at the fork that a path of halves leads to. -/
abbrev Schedule := List Side → Side

/-- The schedule for the forks inside one half. -/
def Schedule.inside (schedule : Schedule) (side : Side) : Schedule :=
  fun path => schedule (side :: path)

/-- The schedule that always runs the left half first. -/
def Schedule.leftFirst : Schedule := fun _ => .left

/-- Runs both tasks to their end, the named one first, and gives both results. -/
@[inline] def join {β γ : Type} (first : Side) (left : σ → Except Fault (β × σ))
    (right : σ → Except Fault (γ × σ)) (memory : σ) : Except Fault (β × γ × σ) :=
  match first with
  | .left => do
    let (b, memory) ← left memory
    let (c, memory) ← right memory
    pure (b, c, memory)
  | .right => do
    let (c, memory) ← right memory
    let (b, memory) ← left memory
    pure (b, c, memory)

/-- The used fronts of two buffers, followed by what the buffers hold behind them. -/
def Scratch.rejoin (whole used : Scratch α) : Scratch α :=
  ⟨used.left ++ whole.left.extract used.left.size whole.left.size,
   used.right ++ whole.right.extract used.right.size whole.right.size⟩

mutual

/-- Sorts the whole of `values`. The left buffer has to hold the left half of the values and the
    right buffer the right half; what they hold beyond that is kept. -/
@[specialize] def forkSort (compare : Comparator σ α) (schedule : Schedule) (values : Array α)
    (scratch : Scratch α) (memory : σ) : Except Fault (Workspace α × σ) := do
  let leftLen := values.size - values.size / 2
  let rightLen := values.size / 2
  require (leftLen ≤ scratch.left.size ∧ rightLen ≤ scratch.right.size) .outOfBounds
  require (1 ≤ leftLen) .overflow
  let left := scratch.left.extract 0 leftLen
  let right := scratch.right.extract 0 rightLen
  if values.size < minForkLen then
    let (sorted, memory) ←
      mergeSortRange compare 0 (values.size - 1) ⟨values, ⟨left, right⟩⟩ memory
    pure (⟨sorted.values, scratch.rejoin sorted.scratch⟩, memory)
  else
    let front := values.extract 0 leftLen
    let back := values.extract leftLen values.size
    let ((front, left), (back, right), memory) ← join (schedule [])
      (fun memory => ownedSort compare (schedule.inside .left) front left memory)
      (fun memory => ownedSort compare (schedule.inside .right) back right memory) memory
    let (sorted, memory) ←
      mergeRuns compare 0 (leftLen - 1) (values.size - 1) ⟨front ++ back, ⟨left, right⟩⟩ memory
    pure (⟨sorted.values, scratch.rejoin sorted.scratch⟩, memory)
termination_by 2 * values.size
decreasing_by
  all_goals
    simp_wf
    simp only [minForkLen] at *
    omega

/-- Sorts the whole of `values` with one buffer, which is split where the values are split. -/
@[specialize] def ownedSort (compare : Comparator σ α) (schedule : Schedule) (values : Array α)
    (buffer : Array α) (memory : σ) : Except Fault ((Array α × Array α) × σ) :=
  if values.size < 2 then .ok ((values, buffer), memory)
  else do
    let leftLen := values.size - values.size / 2
    require (leftLen ≤ buffer.size) .outOfBounds
    let scratch : Scratch α := ⟨buffer.extract 0 leftLen, buffer.extract leftLen buffer.size⟩
    let (sorted, memory) ← forkSort compare schedule values scratch memory
    pure ((sorted.values, sorted.scratch.left ++ sorted.scratch.right), memory)
termination_by 2 * values.size + 1

end

namespace ForkJoin

/-- Sorts the range `[low, high]` if the arguments fit, and changes nothing otherwise. The range is
    taken out of the values, sorted and put back. -/
@[specialize] def sortRangeBy (compare : Comparator σ α) (schedule : Schedule) (low high : Nat)
    (workspace : Workspace α) (memory : σ) : Except Fault (Outcome σ α) := do
  let ⟨values, scratch⟩ := workspace
  let admission ← Admission.ofRange values.size low high scratch.left.size scratch.right.size
  match admission with
  | .idle => pure ⟨.ok (), ⟨values, scratch⟩, memory⟩
  | .refused error => pure ⟨.error error, ⟨values, scratch⟩, memory⟩
  | .ready =>
    require (high + 1 < wordLimit) .overflow
    require (low ≤ high + 1 ∧ high + 1 ≤ values.size) .outOfBounds
    let (sorted, memory) ←
      forkSort compare schedule (values.extract low (high + 1)) scratch memory
    let values :=
      values.extract 0 low ++ sorted.values ++ values.extract (high + 1) values.size
    pure ⟨.ok (), ⟨values, sorted.scratch⟩, memory⟩

/-- Sorts a whole sequence. -/
@[specialize] def sortBy (compare : Comparator σ α) (schedule : Schedule) (values : Array α)
    (memory : σ) : Except Fault (Array α × σ) :=
  if values.size < 2 then .ok (values, memory)
  else do
    let (sorted, memory) ← forkSort compare schedule values (.forValues values) memory
    pure (sorted.values, memory)

end ForkJoin

end MicroBench

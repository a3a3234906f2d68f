import MicroBench.Sort.Comparator
import MicroBench.Sort.Error
import MicroBench.Sort.Workspace

/-! # Merging two runs

  Two neighbouring runs of a sequence, `[low, mid]` and `[mid + 1, high]`, are merged in place. Both
  are copied into scratch; then the range is written again from its front, each time with the
  front item of one of the two copies.

  - The comparator is asked about the front of the right run and the front of the left run, in this
    order. The right item is taken only if it is strictly less, so ties go to the left run.
  - When one of the copies is used up, the rest of the other one follows as it stands.

  `mergeRuns` does the work and `mergeBy` is the entry that checks its arguments first.
-/

namespace MicroBench

variable {σ α : Type}

/-- Where a merge stands when one of its runs is used up. -/
structure MergeState (σ α : Type) where
  /-- How many items of the left run are written. -/
  takenLeft : Nat
  /-- How many items of the right run are written. -/
  takenRight : Nat
  /-- The slot to write next. -/
  slot : Nat
  values : Array α
  memory : σ

/-- Writes front items of the two runs, held in `left` and `right`, until one of them is used up.
    `i` and `j` count the items already written of each run and `k` is the slot to write next. -/
@[specialize] def mergeFronts (compare : Comparator σ α) (left right : Array α)
    (leftLen rightLen : Nat) (i j k : Nat) (values : Array α) (memory : σ) :
    Except Fault (MergeState σ α) :=
  if i < leftLen ∧ j < rightLen then do
    let b ← fetch right j
    let a ← fetch left i
    match compare b a memory with
    | (.lt, memory) =>
      let values ← store values k b
      require (j + 1 < wordLimit) .overflow
      require (k + 1 < wordLimit) .overflow
      mergeFronts compare left right leftLen rightLen i (j + 1) (k + 1) values memory
    | (_, memory) =>
      let values ← store values k a
      require (i + 1 < wordLimit) .overflow
      require (k + 1 < wordLimit) .overflow
      mergeFronts compare left right leftLen rightLen (i + 1) j (k + 1) values memory
  else .ok ⟨i, j, k, values, memory⟩
termination_by (leftLen - i) + (rightLen - j)

/-- Merges the runs `[low, mid]` and `[mid + 1, high]` of the values. -/
@[specialize] def mergeRuns (compare : Comparator σ α) (low mid high : Nat)
    (workspace : Workspace α) (memory : σ) : Except Fault (Workspace α × σ) := do
  let ⟨values, ⟨left, right⟩⟩ := workspace
  require (low ≤ mid ∧ mid ≤ high) .overflow
  require (mid - low + 1 < wordLimit ∧ mid + 1 < wordLimit ∧ high + 1 < wordLimit) .overflow
  let leftLen := mid - low + 1
  let rightLen := high - mid
  -- Both runs move into scratch.
  let left ← copySegment values low (mid + 1) left 0 leftLen
  let right ← copySegment values (mid + 1) (high + 1) right 0 rightLen
  let merged ← mergeFronts compare left right leftLen rightLen 0 0 low values memory
  -- At most one of the two rests has items left.
  let ⟨i, j, k, values, memory⟩ := merged
  require (i ≤ leftLen ∧ j ≤ rightLen) .overflow
  require (k + (leftLen - i) < wordLimit) .overflow
  let values ← copySegment left i leftLen values k (k + (leftLen - i))
  let k := k + (leftLen - i)
  require (k + (rightLen - j) < wordLimit) .overflow
  let values ← copySegment right j rightLen values k (k + (rightLen - j))
  pure (⟨values, ⟨left, right⟩⟩, memory)

/-! ## The checked entry -/

/-- How a call ends: its verdict, and the workspace and the comparator's memory after it. -/
structure Outcome (σ α : Type) where
  verdict : Except SortError Unit
  workspace : Workspace α
  memory : σ

/-- What the check of a call's arguments says. -/
inductive Admission where
  /-- There is nothing to do. -/
  | idle
  /-- The arguments fit. -/
  | ready
  /-- The arguments do not fit. -/
  | refused (error : SortError)
  deriving DecidableEq, Repr

/-- Checks that both buffers can hold their run, the left one first. -/
def Admission.ofScratch (requiredLeft requiredRight leftLen rightLen : Nat) : Admission :=
  if leftLen < requiredLeft then .refused (.scratchTooSmall .left requiredLeft leftLen)
  else if rightLen < requiredRight then .refused (.scratchTooSmall .right requiredRight rightLen)
  else .ready

/-- Checks the arguments of a merge on a sequence of `len` items: the range has to lie inside the
    sequence, the split inside the range, and the buffers have to hold the two runs. -/
def Admission.ofMerge (len low mid high leftLen rightLen : Nat) : Except Fault Admission :=
  if len ≤ high ∨ high < low then .ok (.refused (.rangeOutOfBounds low high len))
  else if mid < low ∨ high < mid then .ok (.refused (.splitOutOfRange low mid high))
  else do
    require (low ≤ mid ∧ mid ≤ high) .overflow
    require (mid - low + 1 < wordLimit) .overflow
    pure (.ofScratch (mid - low + 1) (high - mid) leftLen rightLen)

/-- Merges the runs `[low, mid]` and `[mid + 1, high]` if the arguments fit, and changes nothing
    otherwise. -/
@[specialize] def mergeBy (compare : Comparator σ α) (low mid high : Nat)
    (workspace : Workspace α) (memory : σ) : Except Fault (Outcome σ α) := do
  let admission ← Admission.ofMerge workspace.values.size low mid high
    workspace.scratch.left.size workspace.scratch.right.size
  match admission with
  | .idle => pure ⟨.ok (), workspace, memory⟩
  | .refused error => pure ⟨.error error, workspace, memory⟩
  | .ready =>
    let (workspace, memory) ← mergeRuns compare low mid high workspace memory
    pure ⟨.ok (), workspace, memory⟩

end MicroBench

import MicroBench.Sort.Merge

/-! # Sequential merge sort

  A range is sorted top-down: its left half, then its right half, then one merge. An odd item
  belongs to the left half. All levels use the same two scratch buffers.

  - `mergeSortRange` sorts a range whose arguments are known to fit.
  - `Sequential.sortRangeBy` checks the arguments first. A range of at most one item is left alone
    without any check.
  - `Sequential.sortBy` sorts a whole sequence with scratch of its own.
-/

namespace MicroBench

variable {σ α : Type}

/-- Sorts the range `[low, high]` of the values. A range that is empty or holds one item is
    sorted. -/
@[specialize] def mergeSortRange (compare : Comparator σ α) (low high : Nat)
    (workspace : Workspace α) (memory : σ) : Except Fault (Workspace α × σ) :=
  if low < high then do
    require (low + (high - low) / 2 + 1 < wordLimit) .overflow
    let (workspace, memory) ←
      mergeSortRange compare low (low + (high - low) / 2) workspace memory
    let (workspace, memory) ←
      mergeSortRange compare (low + (high - low) / 2 + 1) high workspace memory
    mergeRuns compare low (low + (high - low) / 2) high workspace memory
  else .ok (workspace, memory)
termination_by high - low

/-- Checks the arguments of a sort of the range `[low, high]` of `len` items. A range of at most
    one item needs no sorting, wherever it lies. -/
def Admission.ofRange (len low high leftLen rightLen : Nat) : Except Fault Admission :=
  if high ≤ low then .ok .idle
  else if len ≤ high then .ok (.refused (.rangeOutOfBounds low high len))
  else do
    require (low ≤ high ∧ high - low + 1 < wordLimit) .overflow
    let (requiredLeft, requiredRight) := runLengths (high - low + 1)
    pure (.ofScratch requiredLeft requiredRight leftLen rightLen)

namespace Sequential

/-- Sorts the range `[low, high]` if the arguments fit, and changes nothing otherwise. -/
@[specialize] def sortRangeBy (compare : Comparator σ α) (low high : Nat)
    (workspace : Workspace α) (memory : σ) : Except Fault (Outcome σ α) := do
  let admission ← Admission.ofRange workspace.values.size low high
    workspace.scratch.left.size workspace.scratch.right.size
  match admission with
  | .idle => pure ⟨.ok (), workspace, memory⟩
  | .refused error => pure ⟨.error error, workspace, memory⟩
  | .ready =>
    let (workspace, memory) ← mergeSortRange compare low high workspace memory
    pure ⟨.ok (), workspace, memory⟩

/-- Sorts a whole sequence. -/
@[specialize] def sortBy (compare : Comparator σ α) (values : Array α) (memory : σ) :
    Except Fault (Array α × σ) :=
  if values.size < 2 then .ok (values, memory)
  else do
    let (workspace, memory) ←
      mergeSortRange compare 0 (values.size - 1) ⟨values, .forValues values⟩ memory
    pure (workspace.values, memory)

end Sequential

end MicroBench

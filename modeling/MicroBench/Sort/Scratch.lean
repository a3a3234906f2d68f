import MicroBench.Fault

/-! # Scratch buffers

  A merge moves its two runs into a left and a right buffer before it writes the merged range. For
  a range of `n` items the left buffer has to hold the longer half and the right buffer the rest.

  - `runLengths n` is that split of `n`.
  - `Scratch.forValues` and `Scratch.withFill` make buffers that fit a given length.
  - `Scratch.capacity` is the longest sequence that a pair of buffers can sort.

  How long the buffers are is settled before they are filled: `Scratch.lengthsFor` checks that they can
  be had, and `Scratch.capacityOf` looks at lengths only.
-/

namespace MicroBench

/-- The lengths of the left and the right run of a range of `n` items. An odd item goes left. -/
def runLengths (n : Nat) : Nat × Nat := (n - n / 2, n / 2)

@[simp] theorem runLengths_fst (n : Nat) : (runLengths n).1 = n - n / 2 := rfl

@[simp] theorem runLengths_snd (n : Nat) : (runLengths n).2 = n / 2 := rfl

/-- A left and a right buffer. -/
structure Scratch (α : Type) where
  left : Array α
  right : Array α
  deriving DecidableEq, Repr

/-- A buffer was asked for that is larger than any buffer can be. -/
inductive AllocationError where
  | capacityOverflow
  deriving DecidableEq, Repr

/-- The sentence shown to a user. -/
def AllocationError.message : AllocationError → String
  | .capacityOverflow =>
    "memory allocation failed because the computed capacity exceeded the collection's maximum"

/-- A buffer has at most this many bytes. -/
def bufferLimit : Nat := (1 <<< 63) - 1

/-- Checks that there can be a buffer of `count` items that take `itemSize` bytes each. -/
def reserve (itemSize count : Nat) : Except AllocationError Unit :=
  if count * itemSize ≤ bufferLimit then .ok () else .error .capacityOverflow

/-- A buffer of `count` copies of an item that takes `itemSize` bytes. -/
def allocate {α : Type} (itemSize count : Nat) (fill : α) : Except AllocationError (Array α) := do
  reserve itemSize count
  pure (Array.replicate count fill)

namespace Scratch

variable {α : Type}

/-- Buffers that fit the given values. Every slot holds a copy of the first value; a merge writes a
    slot before it reads it. -/
def forValues (values : Array α) : Scratch α :=
  match values[0]? with
  | some first =>
    let (leftLen, rightLen) := runLengths values.size
    ⟨Array.replicate leftLen first, Array.replicate rightLen first⟩
  | none => ⟨#[], #[]⟩

/-- The lengths of buffers that fit a sequence of `len` items of `itemSize` bytes each, if there can
    be such buffers. The left one is asked for first. -/
def lengthsFor (itemSize len : Nat) : Except AllocationError (Nat × Nat) := do
  let (leftLen, rightLen) := runLengths len
  reserve itemSize leftLen
  reserve itemSize rightLen
  pure (leftLen, rightLen)

/-- Buffers that fit a sequence of `len` items of `itemSize` bytes each, with the same item in every
    slot. -/
def withFill (itemSize len : Nat) (fill : α) : Except AllocationError (Scratch α) := do
  let (leftLen, rightLen) ← lengthsFor itemSize len
  pure ⟨Array.replicate leftLen fill, Array.replicate rightLen fill⟩

/-- The longest sequence that buffers of these lengths can sort: `2 k + 1` items need `k + 1` slots
    on the left and `k` on the right. -/
def capacityOf (leftLen rightLen : Nat) : Except Fault Nat := do
  require (leftLen * 2 < wordLimit) .overflow
  require (rightLen * 2 < wordLimit) .overflow
  require (rightLen * 2 + 1 < wordLimit) .overflow
  pure (min (leftLen * 2) (rightLen * 2 + 1))

/-- The longest sequence that these buffers can sort. -/
def capacity (scratch : Scratch α) : Except Fault Nat :=
  capacityOf scratch.left.size scratch.right.size

end Scratch

end MicroBench

import MicroBench.Sort.Scratch

/-! # The workspace of a sort

  A sort works on a sequence of values in place, with two scratch buffers beside it. This module
  holds the few array operations that the sort is made of. Each of them stays inside the bounds of
  its arrays or ends in a fault.

  - `fetch` and `store` read and write one slot.
  - `copySegment` copies one segment of an array onto an equally long segment of another.
-/

namespace MicroBench

/-- The values to sort and the scratch buffers to sort them with. -/
structure Workspace (α : Type) where
  values : Array α
  scratch : Scratch α
  deriving DecidableEq, Repr

variable {α : Type}

/-- The item in a slot. -/
@[inline] def fetch (items : Array α) (slot : Nat) : Except Fault α :=
  if h : slot < items.size then .ok items[slot] else .error .outOfBounds

/-- The array with one slot overwritten. -/
@[inline] def store (items : Array α) (slot : Nat) (item : α) : Except Fault (Array α) :=
  if h : slot < items.size then .ok (items.set slot item h) else .error .outOfBounds

/-- Overwrites `count` slots of `target`, from `slot` on, by the items of `source` from `start`
    on. Slots that one of the two arrays does not have are left out. -/
def copyItems (source : Array α) : (count start : Nat) → (target : Array α) → (slot : Nat) → Array α
  | 0, _, target, _ => target
  | count + 1, start, target, slot =>
    if h : start < source.size then
      copyItems source count (start + 1) (target.setIfInBounds slot source[start]) (slot + 1)
    else target

/-- Copies the segment `[start, stop)` of `source` onto the segment `[slot, slotStop)` of
    `target`. Both segments have to lie inside their arrays and to be equally long. -/
def copySegment (source : Array α) (start stop : Nat) (target : Array α) (slot slotStop : Nat) :
    Except Fault (Array α) := do
  require (start ≤ stop ∧ stop ≤ source.size) .outOfBounds
  require (slot ≤ slotStop ∧ slotStop ≤ target.size) .outOfBounds
  require (stop - start = slotStop - slot) .lengthMismatch
  pure (copyItems source (stop - start) start target slot)

end MicroBench

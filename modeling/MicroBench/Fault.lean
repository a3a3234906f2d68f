/-! # Faults

  Positions and lengths in this library are words of 64 bits, and arrays are read and written only
  inside their bounds. A computation that leaves these limits does not go on with a made-up number
  or a default item; it ends in a `Fault`.

  - `Fault` lists the ways in which a computation can leave its limits.
  - `require` guards one step: it passes or ends in the given fault.

  A step that needs `a - b` first requires `b ≤ a`, and a step that needs `a + b` first requires
  that the sum is a word. The arithmetic that follows is then ordinary arithmetic on `Nat`.
-/

namespace MicroBench

/-- Words are the numbers below this limit. -/
def wordLimit : Nat := 1 <<< 64

/-- The ways in which a computation can leave its limits. -/
inductive Fault where
  /-- An array was read or written at a place that it does not have. -/
  | outOfBounds
  /-- A segment was copied onto a segment of another length. -/
  | lengthMismatch
  /-- A number left the range of its word. -/
  | overflow
  deriving DecidableEq, Repr

/-- Goes on if the condition holds and ends in the given fault otherwise. -/
@[inline] def require (condition : Prop) [Decidable condition] (fault : Fault) :
    Except Fault Unit :=
  if condition then .ok () else .error fault

theorem require_of {condition : Prop} [Decidable condition] (fault : Fault) (h : condition) :
    require condition fault = .ok () := by
  simp [require, h]

end MicroBench

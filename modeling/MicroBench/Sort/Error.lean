/-! # Refused calls

  The sort checks its arguments once, before it touches anything. A call whose arguments do not fit
  is refused with a `SortError`, which says what did not fit.

  - `SortError.message` is the sentence shown to a user.
  - `SortError.detail` lists the cause with all of its fields by name.
-/

namespace MicroBench

/-- The two sides of a split: the run or buffer in front, and the one behind it. -/
inductive Side where
  | left
  | right
  deriving DecidableEq, Repr

/-- The side's name inside a sentence. -/
def Side.word : Side → String
  | .left => "left"
  | .right => "right"

/-- The side's name as a value of its own. -/
def Side.label : Side → String
  | .left => "Left"
  | .right => "Right"

/-- Why a sort or a merge was refused. -/
inductive SortError where
  /-- The range `[low, high]` does not lie inside the sequence. -/
  | rangeOutOfBounds (low high len : Nat)
  /-- The last position of the left run does not lie inside the range. -/
  | splitOutOfRange (low mid high : Nat)
  /-- A scratch buffer is shorter than the run that it has to hold. -/
  | scratchTooSmall (side : Side) (required actual : Nat)
  deriving DecidableEq, Repr

namespace SortError

/-- The sentence shown to a user. -/
def message : SortError → String
  | rangeOutOfBounds low high len =>
    s!"range [{low}, {high}] is out of bounds for a sequence of length {len}"
  | splitOutOfRange low mid high =>
    s!"split point {mid} is outside of the merge range [{low}, {high}]"
  | scratchTooSmall side required actual =>
    side.word ++ s!" scratch buffer holds {actual} elements, but {required} are required"

/-- The cause's name. -/
def name : SortError → String
  | rangeOutOfBounds .. => "RangeOutOfBounds"
  | splitOutOfRange .. => "SplitOutOfRange"
  | scratchTooSmall .. => "ScratchTooSmall"

/-- The cause's fields, by name and in the order in which they are listed. -/
def fields : SortError → List (String × String)
  | rangeOutOfBounds low high len =>
    [("low", toString low), ("high", toString high), ("len", toString len)]
  | splitOutOfRange low mid high =>
    [("low", toString low), ("mid", toString mid), ("high", toString high)]
  | scratchTooSmall side required actual =>
    [("side", side.label), ("required", toString required), ("actual", toString actual)]

/-- The cause with all of its fields: the name, then `field: value` pairs between braces. -/
def detail (error : SortError) : String :=
  let body := ", ".intercalate (error.fields.map fun (field, value) => field ++ ": " ++ value)
  error.name ++ " \x7b " ++ body ++ " \x7d"

end SortError

end MicroBench

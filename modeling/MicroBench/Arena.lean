import MicroBench.Sequence
import MicroBench.Sort.Session

/-! # The arena of the sort benchmark

  An arena owns a sequence of 32-bit integers and the scratch to sort it, both made once. It can be
  refilled with the countdown `len, …, 2, 1` and sorted with either engine as often as wanted.

  - `Arena.withLen` makes a filled arena. The countdown starts at the length, so the length has to
    be a 32-bit integer itself.
  - `Arena.fillDescending`, `Arena.sort` and `Arena.run` are the operations on it.
-/

namespace MicroBench

/-- Why an arena could not be made or sorted. -/
inductive ArenaError where
  /-- The length is no 32-bit integer. -/
  | tooLarge (len : Nat)
  /-- There is no room for the values or the scratch. -/
  | allocation (len : Nat) (cause : AllocationError)
  /-- The sort refused its arguments. -/
  | sort (cause : SortError)
  deriving DecidableEq, Repr

namespace ArenaError

/-- The sentence shown to a user. A refused sort speaks for itself. -/
def message : ArenaError → String
  | tooLarge len => s!"arena length {len} does not fit the i32 value range"
  | allocation len _ => s!"failed to allocate an arena of {len} elements"
  | sort cause => cause.message

/-- The sentence of the cause behind the error, if there is one that the message leaves out. -/
def source : ArenaError → Option String
  | tooLarge _ => none
  | allocation _ cause => some cause.message
  | sort _ => none

end ArenaError

/-- A sequence of integers and the scratch to sort it. -/
abbrev Arena := Workspace Int32

namespace Arena

/-- The largest length of an arena. -/
def maxLen : Nat := (1 <<< 31) - 1

/-- The integer in slot `i` of a countdown of `len` slots: `len - i`, if this is a 32-bit
    integer. -/
def countdownAt (len i : Nat) : Except Fault Int32 := do
  let difference := (Int32.ofNat len).toInt - (Int32.ofNat i).toInt
  require (-0x80000000 ≤ difference ∧ difference < 0x80000000) .overflow
  pure (Int32.ofInt difference)

/-- Writes the countdown into the slots `i`, `i + 1`, … of an array of `len` slots; `remaining`
    counts the slots that are left. -/
def fillFrom (len : Nat) : (remaining i : Nat) → Array Int32 → Except Fault (Array Int32)
  | 0, _, values => .ok values
  | remaining + 1, i, values =>
    match countdownAt len i with
    | .ok item => fillFrom len remaining (i + 1) (values.setIfInBounds i item)
    | .error fault => .error fault

/-- Resets the values to `len, …, 2, 1`. -/
def fillDescending (arena : Arena) : Except Fault Arena := do
  let ⟨values, scratch⟩ := arena
  let len := values.size
  let values ← fillFrom len len 0 values
  pure ⟨values, scratch⟩

/-- An arena of zeros with scratch that fits it. -/
def allocate (len : Nat) : Except ArenaError Arena :=
  if maxLen < len then .error (.tooLarge len)
  else
    match MicroBench.allocate 4 len (0 : Int32), Scratch.withFill 4 len (0 : Int32) with
    | .ok values, .ok scratch => .ok ⟨values, scratch⟩
    | .error cause, _ => .error (.allocation len cause)
    | _, .error cause => .error (.allocation len cause)

/-- An arena of `len` integers, filled with the countdown. -/
def withLen (len : Nat) : Except Fault (Except ArenaError Arena) :=
  match allocate len with
  | .ok arena => .ok <$> arena.fillDescending
  | .error error => .ok (.error error)

/-- Sorts the values. An arena without values is sorted. -/
def sort (engine : Engine) (schedule : Schedule) (arena : Arena) :
    Except Fault (Except ArenaError Unit × Arena) :=
  match arena.values.size with
  | 0 => .ok (.ok (), arena)
  | high + 1 => do
    let outcome ← engine.sortRangeBy naturalComparator schedule 0 high arena ()
    pure (outcome.verdict.mapError .sort, outcome.workspace)

/-- Refills the arena and sorts it. -/
def run (arena : Arena) : Except Fault (Except ArenaError Unit × Arena) := do
  let arena ← arena.fillDescending
  arena.sort .sequential .leftFirst

/-- Tells whether no value is followed by a smaller one. -/
def isSorted (arena : Arena) : Bool := ascends arena.values.toList

/-- What can be done to an arena. -/
inductive Operation where
  | fill
  | sort
  | sortParallel
  | run
  deriving DecidableEq, Repr

/-- Applies one operation. -/
def apply (schedule : Schedule) (arena : Arena) :
    Operation → Except Fault (Except ArenaError Unit × Arena)
  | .fill => do pure (.ok (), ← arena.fillDescending)
  | .sort => arena.sort .sequential schedule
  | .sortParallel => arena.sort .forkJoin schedule
  | .run => arena.run

/-- Applies operations one after the other and gives the verdict and the arena after each. -/
def applyAll (timetable : Timetable) :
    Arena → List Operation → Except Fault (List (Except ArenaError Unit × Arena))
  | _, [] => .ok []
  | arena, operation :: rest => do
    let (verdict, arena) ← arena.apply (timetable 0) operation
    let others ← applyAll timetable.later arena rest
    pure ((verdict, arena) :: others)

end Arena

end MicroBench

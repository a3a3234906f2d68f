/-! # Nesting of patterns

  The parts of a regular expression can be nested, but not deeper than `maxHeight`. Characters, marks
  and the classes of a backslash have height zero. Groups, classes, repetitions, operators and lists
  of more than one part are one higher than the highest of their parts.

  Heights are counted while a pattern is read: a `Sequence` counts the items of one alternative, a
  `Choice` the alternatives of a group, a `Members` the members of a class.
-/

namespace MicroBench.Log.Pattern

/-- The greatest height of a pattern. -/
def maxHeight : Nat := 250

/-- The height of a list of parts of which the highest is known: a single part stands for itself. -/
def listHeight (count tallest : Nat) : Nat := if count ≤ 1 then tallest else 1 + tallest

/-- The items of one alternative so far. -/
structure Sequence where
  count : Nat := 0
  /-- The height of the highest item in front of the last one. -/
  tallest : Nat := 0
  /-- The height of the last item. -/
  last : Nat := 0
  /-- Whether there is a last item and it can be repeated. -/
  repeatable : Bool := false
  deriving DecidableEq, Repr

namespace Sequence

/-- Adds an item. -/
def push (sequence : Sequence) (height : Nat) (repeatable : Bool) : Sequence :=
  ⟨sequence.count + 1, max sequence.tallest sequence.last, height, repeatable⟩

/-- Repeats the last item, if it can be repeated. -/
def repeatLast? (sequence : Sequence) : Option Sequence :=
  if sequence.repeatable then some { sequence with last := sequence.last + 1 } else none

/-- The height of the whole alternative. -/
def height (sequence : Sequence) : Nat :=
  listHeight sequence.count (max sequence.tallest sequence.last)

end Sequence

/-- The alternatives of a group so far. -/
structure Choice where
  /-- The height of the highest complete alternative, if there is one. -/
  complete : Option Nat := none
  /-- The alternative that is being read. -/
  current : Sequence := {}
  deriving DecidableEq, Repr

namespace Choice

/-- Begins another alternative. -/
def split (choice : Choice) : Choice :=
  ⟨some (max (choice.complete.getD 0) choice.current.height), {}⟩

/-- Adds an item to the current alternative. -/
def push (choice : Choice) (height : Nat) (repeatable : Bool) : Choice :=
  { choice with current := choice.current.push height repeatable }

/-- The height of all alternatives together. -/
def height (choice : Choice) : Nat :=
  match choice.complete with
  | none => choice.current.height
  | some complete => 1 + max complete choice.current.height

end Choice

/-- The members of a class so far. -/
structure Members where
  /-- The height of what stands in front of the last operator, if there is one. -/
  operand : Option Nat := none
  /-- How many members there are behind the last operator. -/
  count : Nat := 0
  /-- The height of the highest of them. -/
  tallest : Nat := 0
  deriving DecidableEq, Repr

namespace Members

/-- Adds a member. -/
def push (members : Members) (height : Nat) : Members :=
  { members with count := members.count + 1, tallest := max members.tallest height }

/-- The height of all members together. -/
def height (members : Members) : Nat :=
  let last := listHeight members.count members.tallest
  match members.operand with
  | none => last
  | some operand => 1 + max operand last

/-- Begins the right operand of an operator, whose left operand is everything in front of it. -/
def split (members : Members) : Members := { operand := some members.height }

end Members

end MicroBench.Log.Pattern

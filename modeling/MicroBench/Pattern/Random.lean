/-! # Random patterns

  A random pattern is made from the words that a generator draws. Nothing here depends on the
  generator: every pattern is a function of its draws.

  - `random` and `randomUniform` turn draws into integers.
  - `randomSorted`, `sawMixed` and `pipeOrgan` sort parts of drawn integers.
  - `splitMix` is a generator to draw from.
-/

namespace MicroBench.Pattern

/-- The words that a generator draws, one after the other. -/
abbrev Draws := Nat → UInt64

/-- The generator that steps through the words by a fixed odd stride and mixes the bits of each. -/
def splitMix (seed : UInt64) : Draws := fun i =>
  let z := seed + (UInt64.ofNat (i + 1)) * 0x9e3779b97f4a7c15
  let z := (z ^^^ (z >>> 30)) * 0xbf58476d1ce4e5b9
  let z := (z ^^^ (z >>> 27)) * 0x94d049bb133111eb
  z ^^^ (z >>> 31)

/-- Integers of 32 bits, each the upper half of a draw. -/
def random (draws : Draws) (len : Nat) : List Int32 :=
  (List.range len).map fun i => (draws i >>> 32).toUInt32.toInt32

/-- A range of integers, with or without its upper end. -/
structure IntegerRange where
  lo : Int32
  hi : Int32
  inclusive : Bool
  deriving DecidableEq, Repr

namespace IntegerRange

/-- The range from `lo` to `hi`, both included. -/
def closed (lo hi : Int32) : IntegerRange := ⟨lo, hi, true⟩

/-- The range from `lo` up to, but not including, `hi`. -/
def halfOpen (lo hi : Int32) : IntegerRange := ⟨lo, hi, false⟩

/-- How many integers the range holds; not positive if it is empty. -/
def span (range : IntegerRange) : Int :=
  range.hi.toInt - range.lo.toInt + if range.inclusive then 1 else 0

/-- Tells whether an integer lies in the range. -/
def contains (range : IntegerRange) (n : Int32) : Bool :=
  range.lo ≤ n && if range.inclusive then n ≤ range.hi else n < range.hi

end IntegerRange

/-- Integers of a range. There are none, not even an empty list of them, in an empty range. -/
def randomUniform (draws : Draws) (range : IntegerRange) (len : Nat) : Option (List Int32) :=
  if range.span ≤ 0 then none
  else some ((List.range len).map fun i =>
    Int32.ofInt (range.lo.toInt + ((draws i).toNat : Int) % range.span))

/-! ## Sorted parts -/

/-- The integers in ascending order. -/
def ascend (values : List Int32) : List Int32 := values.mergeSort fun a b => a ≤ b

/-- The integers in descending order. -/
def descend (values : List Int32) : List Int32 := values.mergeSort fun a b => b ≤ a

/-- How many of `len` items the given percentage is, rounded to the nearest number, a half away
    from zero. A percentage below zero, or one that is no number, is none of them. -/
def portion (len : Nat) (percent : Float) : Nat :=
  (Float.ofNat len * (percent / 100)).round.toUInt64.toNat

/-- Drawn integers whose front part is in ascending order. The front cannot be longer than the
    whole. -/
def randomSorted (draws : Draws) (len : Nat) (percent : Float) : Option (List Int32) :=
  let values := random draws len
  let front := portion len percent
  if len < front then none else some (ascend (values.take front) ++ values.drop front)

/-- Appends the consecutive chunks of `size + 1` values to those already cut off. -/
def chunksOnto {α : Type} (size : Nat) (done : Array (List α)) (values : List α) :
    Array (List α) :=
  match values with
  | [] => done
  | value :: rest =>
    chunksOnto size (done.push (value :: rest.take size)) (rest.drop size)
termination_by values.length
decreasing_by
  simp only [List.length_cons, List.length_drop]
  omega

/-- Cuts a list into consecutive chunks of the given size, the last one possibly shorter. A size of
    zero counts as one. -/
def chunks {α : Type} (size : Nat) (values : List α) : List (List α) :=
  (chunksOnto (size - 1) #[] values).toList

/-- The quotient of two numbers. There is none if the divisor is zero. -/
def quotient (a b : Nat) : Option Nat := if b = 0 then none else some (a / b)

/-- How long the chunks of a saw with the given number of teeth are. -/
def sawChunk (len saws : Nat) : Option Nat := (quotient len (max saws 1)).map (max · 1)

/-- Puts a chunk into the given direction: ascending for zero, descending for any other number. A
    chunk without a direction stays as it is. -/
def direct (direction : Option Int32) (chunk : List Int32) : List Int32 :=
  match direction with
  | some 0 => ascend chunk
  | some _ => descend chunk
  | none => chunk

/-- Cuts the values into chunks and puts each chunk into the direction with its number. Chunks of no
    values at all cannot be cut. -/
def sawOf (size : Nat) (directions : Array Int32) (values : List Int32) : Option (List Int32) :=
  if size = 0 then none
  else some ((chunks size values).mapIdx fun i chunk => direct directions[i]? chunk).flatten

/-- Drawn integers in chunks of mixed directions. The directions come from a generator of their own,
    which draws the same words as that of the values if both start from one seed. -/
def sawMixed (draws directionDraws : Draws) (len saws : Nat) : Option (List Int32) :=
  if len = 0 then some []
  else do
    let size ← sawChunk len saws
    let count ← quotient len size
    let directions ← randomUniform directionDraws (.closed 0 1) (count + 1)
    sawOf size directions.toArray (random draws len)

/-- Puts the front half of the values into ascending order and the rest into descending order. -/
def organOf (values : List Int32) : List Int32 :=
  ascend (values.take (values.length / 2)) ++ descend (values.drop (values.length / 2))

/-- Drawn integers that rise, then fall. -/
def pipeOrgan (draws : Draws) (len : Nat) : List Int32 := organOf (random draws len)

/-- Tells whether two sequences hold the same values, each as often as the other. -/
def sameItems (xs ys : List Int32) : Bool := ascend xs == ascend ys

end MicroBench.Pattern

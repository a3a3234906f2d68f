/-! # Patterns without chance

  The inputs whose items follow from their positions alone. All of them are sequences of 32-bit
  integers.
-/

namespace MicroBench.Pattern

/-- The same number everywhere. -/
def allEqual (len : Nat) : List Int32 := List.replicate len 66

/-- The numbers `0, 1, …, len - 1`. -/
def ascending (len : Nat) : List Int32 := (List.range len).map Int32.ofNat

/-- The numbers `len - 1, …, 1, 0`. -/
def descending (len : Nat) : List Int32 := (ascending len).reverse

/-- The numbers `len, …, 2, 1`. -/
def countdown (len : Nat) : List Int32 := ((List.range' 1 len).map Int32.ofNat).reverse

/-- Rises from both ends towards the middle. -/
def organ (len : Nat) : List Int32 :=
  (List.range len).map fun i => Int32.ofNat (min i (len - 1 - i))

/-- Counts up from zero again and again; a period of zero counts as one. -/
def saw (period len : Nat) : List Int32 :=
  (List.range len).map fun i => Int32.ofNat (i % max period 1)

/-- The next state of a linear congruential generator on 64-bit words. -/
def congruentialStep (x : UInt64) : UInt64 := x * 6364136223846793005 + 1442695040888963407

/-- The number from `lo` to `hi` that the upper half of a generator's state stands for. -/
def congruentialItem (lo hi : Int32) (x : UInt64) : Int32 :=
  Int32.ofInt (lo.toInt + ((x >>> 32).toNat : Int) % (hi.toInt - lo.toInt + 1))

/-- The numbers from `lo` to `hi` that the generator makes when it starts at `seed`. -/
def congruential (seed : UInt64) (lo hi : Int32) (len : Nat) : List Int32 :=
  let states := (List.range len).foldl
    (fun (states : Array UInt64) _ =>
      states.push (congruentialStep (states.back?.getD seed))) #[]
  states.toList.map (congruentialItem lo hi)

/-- The patterns without chance, with their parameters. -/
inductive Shape where
  | allEqual
  | ascending
  | descending
  | countdown
  | organ
  | saw (period : Nat)
  | congruential (seed : UInt64) (lo hi : Int32)
  deriving DecidableEq, Repr

/-- The first `len` items of a shape. -/
def Shape.items : Shape → (len : Nat) → List Int32
  | .allEqual, len => Pattern.allEqual len
  | .ascending, len => Pattern.ascending len
  | .descending, len => Pattern.descending len
  | .countdown, len => Pattern.countdown len
  | .organ, len => Pattern.organ len
  | .saw period, len => Pattern.saw period len
  | .congruential seed lo hi, len => Pattern.congruential seed lo hi len

end MicroBench.Pattern

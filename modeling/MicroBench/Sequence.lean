/-! # Sequences

  Small facts about sequences that several parts of the library ask for.
-/

namespace MicroBench

/-- Tells whether each item stands in the given relation to the next one. -/
def adjacent {α : Type} (related : α → α → Bool) : List α → Bool
  | a :: b :: rest => related a b && adjacent related (b :: rest)
  | _ => true

/-- Tells whether no integer is followed by a smaller one. -/
def ascends (values : List Int32) : Bool := adjacent (fun a b => a ≤ b) values

/-- Tells whether no integer is followed by a larger one. -/
def descends (values : List Int32) : Bool := adjacent (fun a b => b ≤ a) values

end MicroBench

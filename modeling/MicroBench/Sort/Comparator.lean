/-! # Comparators

  The sort learns about its items only by asking a comparator. A comparator may keep a memory
  between its calls, so it need not be an order: its answers may come from a script, depend on how
  often it was asked, or contradict each other.

  - `Comparator σ α` answers calls on items of type `α` with a memory of type `σ`.
  - `Oracle α` is the general case seen from outside: the answer depends on all calls so far.
    `Oracle.comparator` remembers these calls, so the memory after a run is the list of its calls.
-/

namespace MicroBench

/-- Answers a call on two items and moves on to the next memory. -/
abbrev Comparator (σ : Type) (α : Type) := α → α → σ → Ordering × σ

/-- A comparator that gives every pair of items a fixed answer and keeps its memory as it is. -/
@[inline] def Comparator.ofOrder {σ α : Type} (order : α → α → Ordering) : Comparator σ α :=
  fun a b memory => (order a b, memory)

/-- The calls made so far, the first one in front. -/
abbrev CallLog (α : Type) := Array (α × α)

/-- Answers a call on two items when all earlier calls are known. -/
abbrev Oracle (α : Type) := CallLog α → α → α → Ordering

namespace Oracle

variable {α : Type}

/-- Asks the oracle and writes the call down. -/
@[inline] def comparator (oracle : Oracle α) : Comparator (CallLog α) α :=
  fun a b calls => (oracle calls a b, calls.push (a, b))

/-- The oracle whose answer to a pair of items never changes. -/
def ofOrder (order : α → α → Ordering) : Oracle α := fun _ a b => order a b

/-- The oracle that gives the same answer to every call. -/
def constant (answer : Ordering) : Oracle α := fun _ _ _ => answer

/-- The oracle that reads its answers off a script, which starts again when it is used up. An
    empty script answers that all items are equal. -/
def script (answers : Array Ordering) : Oracle α :=
  fun calls _ _ => (answers[calls.size % answers.size]?).getD .eq

end Oracle

end MicroBench

import MicroBench.Text.Numeral

/-! # Seeds

  All random patterns of a process start from one seed, so that a run can be repeated: the seed is
  the one that the environment gives, or else is drawn once. A process can ask for a fresh seed
  each time instead; a seed given by the environment, readable or not, overrules that wish.
-/

namespace MicroBench.Pattern

/-- What decides about a process's seeds. -/
structure SeedPolicy where
  /-- The text that the environment gives as the seed, if it gives one. -/
  override : Option String := none
  /-- Whether the process asked for a fresh seed each time. -/
  eachTime : Bool := false
  deriving DecidableEq, Repr

/-- The seed that the environment gives, if its text is a word of 64 bits. -/
def SeedPolicy.given? (policy : SeedPolicy) : Option UInt64 := do
  let text ← policy.override
  (Text.readWord text).toOption.map UInt64.ofNat

/-- The seed that a process gets when it asks for the `call`-th time, counted from zero. `entropy`
    are the words that the process can draw at random. -/
def SeedPolicy.seed (policy : SeedPolicy) (entropy : Nat → UInt64) (call : Nat) : UInt64 :=
  if policy.eachTime && policy.override.isNone then entropy call
  else policy.given?.getD (entropy 0)

end MicroBench.Pattern

import MicroBench.Fault

/-! # Trial division

  A number is tested by dividing it by the odd numbers from three up to its square root. The
  divisors are words of 64 bits, so that the square of a divisor of a 32-bit number is one, too.
-/

namespace MicroBench.Prime

/-- Divides `n` by `i`, `i + 2`, … until one of them divides it or their square exceeds it. -/
def hasNoOddDivisorFrom (n i : Nat) : Except Fault Bool := do
  require (i * i < wordLimit) .overflow
  if i * i ≤ n then
    if n % i = 0 then pure false
    else
      require (i + 2 < wordLimit) .overflow
      hasNoOddDivisorFrom n (i + 2)
  else pure true
termination_by n + 1 - i
decreasing_by
  rename_i h _
  have : i ≤ i * i := Nat.le_mul_self i
  omega

/-- Tells whether a number is prime. -/
def isPrime (n : UInt32) : Except Fault Bool :=
  if n ≤ 1 then .ok false
  else if n = 2 ∨ n = 3 then .ok true
  else if n % 2 = 0 then .ok false
  else hasNoOddDivisorFrom n.toNat 3

end MicroBench.Prime

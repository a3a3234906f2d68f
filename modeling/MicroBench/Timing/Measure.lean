import MicroBench.Timing.Duration

/-! # Measuring a task

  A task is measured by reading a clock before and after it. The clock belongs to the surroundings,
  so a measurement is written for any monad that has one.
-/

namespace MicroBench

/-- A clock that counts nanoseconds from some start. -/
structure Clock (m : Type → Type) where
  now : m Nat

section

variable {m : Type → Type} [Monad m] {ε β : Type}

/-- Runs a task once and tells how long it took. -/
def Clock.measure (clock : Clock m) (task : Unit → m β) : m (β × Duration) := do
  let start ← clock.now
  let result ← task ()
  let stop ← clock.now
  pure (result, .ofNanos (stop - start))

/-- Runs a task that may fail once and tells how long it took. A failure is passed on, without a
    duration. -/
def Clock.tryMeasure (clock : Clock m) (task : Unit → m (Except ε β)) :
    m (Except ε (β × Duration)) := do
  let start ← clock.now
  match ← task () with
  | .ok result =>
    let stop ← clock.now
    pure (.ok (result, .ofNanos (stop - start)))
  | .error error => pure (.error error)

end

end MicroBench

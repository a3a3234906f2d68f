import Mathlib.Data.Vector.Defs
import MicroBench.Bench
import MicroBench.Proofs.Arena
import MicroBench.Proofs.Summary

/-! # The sort benchmark fails on bad settings only

  A benchmark can fail in many places: the arena may not be made, a sort may be refused, a check may
  find unsorted values, and there may be nothing to sum up. The settings decide all of this before the
  first run. Once there is an arena, it stays sound from run to run, so every sort is admitted and leaves
  its values in order. What is left of the runs is to read the clock and to tell of them.

  - `Host.timings` is what a host sees of the runs of a benchmark.
  - `sortRuns_succ` is the step and `sortRuns_eq` the run: from a sound arena, the runs of the sort
    benchmark are these timings and nothing else.
  - `benchSort_fails_on_settings_only` says for all settings how the benchmark ends.
-/

namespace MicroBench

section

variable {m : Type → Type} [Monad m]

/-- Times `count` runs from number `run` on, in which nothing is done, and tells of each. -/
def Host.timings (host : Host m) (message : String) :
    (count run : Nat) → m (List.Vector Duration count)
  | 0, _ => pure .nil
  | count + 1, run => do
    let timed ← host.measure fun _ => pure ()
    host.emit (finishedEvent message run timed.2)
    let later ← host.timings message count (run + 1)
    pure (later.cons timed.2)

theorem checked_ok {β : Type} (result : β) :
    (checked (.ok result) : ExceptT BenchError m β) = pure result := rfl

end

/-! ## One run -/

/-- The refill before a run ends without a fault and keeps the arena sound. -/
theorem refilled_sound (run : Nat) {len : Nat} {arena : Arena} (hsound : arena.Sound len) :
    ∃ ready : Arena, refilled run arena = .ok ready ∧ ready.Sound len := by
  unfold refilled
  by_cases hfirst : run = 0
  · exact ⟨arena, if_pos hfirst, hsound⟩
  · obtain ⟨ready, hfill, hready, -⟩ := hsound.fillDescending
    rw [if_neg hfirst]
    exact ⟨ready, hfill, hready⟩

/-- A sound arena is sorted without failure, and the check finds it sorted. -/
theorem sortArena_sound (config : SortConfig) (schedule : Schedule) {len : Nat} {arena : Arena}
    (hsound : arena.Sound len) :
    ∃ after : Arena, sortArena config schedule arena = .ok after ∧ after.Sound len ∧
      after.isSorted = true := by
  obtain ⟨after, hsort, hafter, hintegers⟩ :=
    Arena.sort_sound (if config.parallel then .forkJoin else .sequential) schedule hsound
  refine ⟨after, ?_, hafter, ?_⟩
  · unfold sortArena
    simp only [hsort]
  · rw [Arena.isSorted_iff, hintegers]
    exact Arena.countUp_ascending len

section

variable {m : Type → Type} [Monad m] [LawfulMonad m]

/-- A task that succeeds is timed like any other task. -/
theorem Clock.tryMeasure_ok {ε β : Type} (clock : Clock m) (result : β) :
    ExceptT.mk (clock.tryMeasure fun _ => pure (.ok result : Except ε β)) =
      ExceptT.lift ((fun timed => (result, timed.2)) <$> clock.measure fun _ => pure ()) := by
  apply ExceptT.ext
  simp [Clock.tryMeasure, Clock.measure]

/-- One run: the clock is read, the host is told, and the others follow with an arena that is sound. -/
theorem sortRuns_succ (host : Host m) (config : SortConfig) (remaining run : Nat) {len : Nat}
    {arena : Arena} (hsound : arena.Sound len) (durations : Array Duration) :
    ∃ after : Arena, after.Sound len ∧
      (sortRuns host config (remaining + 1) run arena durations).run = (do
        let timed ← host.measure fun _ => pure ()
        host.emit (finishedEvent "sort finished" run timed.2)
        (sortRuns host config remaining (run + 1) after (durations.push timed.2)).run) := by
  obtain ⟨ready, hrefilled, hready⟩ := refilled_sound run hsound
  obtain ⟨after, hsort, hafter, hsorted⟩ := sortArena_sound config (host.timetable run) hready
  refine ⟨after, hafter, ?_⟩
  rw [sortRuns, hrefilled, checked_ok, pure_bind, hsort, Clock.tryMeasure_ok, ExceptT.run_bind_lift]
  -- The values are in order, so a check of them, if there is one, passes.
  simp [hsorted, ExceptT.run_bind]

/-! ## All runs -/

/-- The runs give the durations that the clock told, behind those of earlier runs. -/
theorem sortRuns_eq (host : Host m) (config : SortConfig) (remaining run : Nat) {len : Nat}
    {arena : Arena} (hsound : arena.Sound len) (durations : Array Duration) :
    (sortRuns host config remaining run arena durations).run =
      (fun timed => .ok (durations ++ timed.toList.toArray)) <$>
        host.timings "sort finished" remaining run := by
  induction remaining generalizing run arena durations with
  | zero => simp [sortRuns, Host.timings]
  | succ remaining ih =>
    -- All that the next run needs of the arena is that it is sound.
    obtain ⟨after, hafter, hstep⟩ := sortRuns_succ host config remaining run hsound durations
    rw [hstep]
    simp [Host.timings, ih _ hafter]

/-! ## The whole benchmark -/

/-- With an arena there are only the timings and their summary. -/
theorem benchSort_of_fits (host : Host m) (config : SortConfig)
    (hlen : config.len ≤ Arena.maxLen) :
    (benchSort host config).run = (do
      host.emit (allocatedEvent config.len)
      let timed ← host.timings "sort finished" config.runs 0
      (summarize host "sort" config.len timed.toList.toArray).run) := by
  obtain ⟨arena, hmade, hsound, -⟩ := Arena.withLen_sound hlen
  rw [benchSort, hmade, checked_ok, pure_bind]
  simp [ExceptT.run_bind, sortRuns_eq host config config.runs 0 hsound]

/-- Whatever the clock told of at least one run can be summed up. -/
theorem timings_have_summary {count : Nat} (hcount : 0 < count)
    (timed : List.Vector Duration count) :
    ∃ summary, (Summary.ofSamples timed.toList).1 = some summary ∧ summary.InOrder count := by
  have hlength : timed.toList.length = count := timed.toList_length
  have hsummary := Summary.ofSamples_inOrder (show 0 < timed.toList.length by omega)
  rw [hlength] at hsummary
  exact hsummary

omit [LawfulMonad m] in
theorem summarize_of_none (host : Host m) (name : String) (len : Nat) :
    (summarize host name len #[]).run = pure (.error .noRuns) := by
  rw [summarize, Summary.ofSamples_nil]
  rfl

theorem summarize_of_some (host : Host m) (name : String) (len : Nat) {samples : List Duration}
    {summary : Summary} (hsome : (Summary.ofSamples samples).1 = some summary) :
    (summarize host name len samples.toArray).run = (do
      host.emit (doneEvent name len summary)
      pure (.ok summary)) := by
  rw [summarize, List.toList_toArray, hsome]
  exact ExceptT.run_bind_lift (host.emit (doneEvent name len summary)) fun _ => pure summary

/-- The settings alone decide how the sort benchmark ends, whatever the clock reports and in whatever
    order the forks run. If the length is no 32-bit integer, the arena cannot be made, and nothing else
    happens. If there is nothing to run, there is nothing to sum up. Otherwise the benchmark times all
    runs and gives their summary, with its statistics in order: no sort is refused, no check fails and
    no computation leaves its limits. -/
theorem benchSort_fails_on_settings_only (host : Host m) (config : SortConfig) :
    (2 ^ 31 - 1 < config.len →
      (benchSort host config).run = pure (.error (.setup config.len (.tooLarge config.len)))) ∧
    (config.len ≤ 2 ^ 31 - 1 → config.runs = 0 →
      (benchSort host config).run = (do
        host.emit (allocatedEvent config.len)
        pure (.error .noRuns))) ∧
    (config.len ≤ 2 ^ 31 - 1 → 0 < config.runs →
      ∃ summed : List.Vector Duration config.runs → Summary,
        (∀ timed, (Summary.ofSamples timed.toList).1 = some (summed timed) ∧
          (summed timed).InOrder config.runs) ∧
        (benchSort host config).run = (do
          host.emit (allocatedEvent config.len)
          let timed ← host.timings "sort finished" config.runs 0
          host.emit (doneEvent "sort" config.len (summed timed))
          pure (.ok (summed timed)))) ∧
    (BenchError.setup config.len (.tooLarge config.len)).chain =
      [s!"setting up a sort of {config.len} elements",
        s!"arena length {config.len} does not fit the i32 value range"] ∧
    BenchError.noRuns.chain = ["no runs were measured"] := by
  refine ⟨?_, ?_, ?_, ?_, rfl⟩
  · intro hlarge
    -- The length is looked at before the host is told anything and before the number of runs counts.
    rw [benchSort, Arena.withLen_of_large hlarge, checked_ok, pure_bind]
    rfl
  · intro hlen hnone
    rw [benchSort_of_fits host config hlen, hnone]
    simp [Host.timings, summarize_of_none]
  · intro hlen hruns
    choose summed hsummed using timings_have_summary hruns
    have hsum := fun timed => summarize_of_some host "sort" config.len (hsummed timed).1
    refine ⟨summed, hsummed, ?_⟩
    rw [benchSort_of_fits host config hlen]
    simp only [hsum]
  · rfl

end

/-- A clock that reads its times off a list, and forks that start on the right: the first length that is
    too large, with nothing to run besides; three integers with nothing to run; and two checked
    fork-join sorts of them. -/
theorem benchSort_fails_on_settings_only_scripted :
    let host : Host (StateM (List Nat)) :=
      ⟨⟨modifyGet fun times => (times.headD 0, times.tail)⟩, fun _ => pure (), fun _ _ => .right⟩
    (benchSort host ⟨2 ^ 31, 0, false, true⟩).run =
      pure (.error (.setup (2 ^ 31) (.tooLarge (2 ^ 31)))) ∧
    ((benchSort host ⟨3, 0, true, true⟩).run.run []).1 = .error .noRuns ∧
    ∃ summary, ((benchSort host ⟨3, 2, true, true⟩).run.run [10, 40, 50, 60]).1 = .ok summary ∧
      summary.InOrder 2 := by
  intro host
  have hlarge := (benchSort_fails_on_settings_only host ⟨2 ^ 31, 0, false, true⟩).1 (by decide)
  have hnone := (benchSort_fails_on_settings_only host ⟨3, 0, true, true⟩).2.1 (by decide) rfl
  obtain ⟨summed, hsummed, hrun⟩ :=
    (benchSort_fails_on_settings_only host ⟨3, 2, true, true⟩).2.2.1 (by decide) (by decide)
  refine ⟨hlarge, ?_, summed ⟨[.ofNanos 30, .ofNanos 10], rfl⟩, ?_, (hsummed _).2⟩
  · rw [hnone]
    rfl
  · rw [hrun]
    rfl

end MicroBench

import MicroBench.Proofs.ForkJoin
import MicroBench.Proofs.Order

/-! # Agreement of the engines

  If the answers of the comparator follow an order, no schedule can be told from another by the
  verdict or the values, and every schedule makes the same calls. The sequential sort is one of
  the schedules. The order need not be consistent in any way.

  - `rangeEffect_of_follows` and `rangeEffect_calls` compare the effects under two schedules.
  - `forkJoin_agrees_with_sequential` is the result for both entries of both engines.
-/

namespace MicroBench

variable {σ α : Type}

/-- Under two schedules a range is sorted to the same values, or refused for the same reason. -/
theorem rangeEffect_of_follows {compare : Comparator σ α} {order : α → α → Ordering}
    (hfollows : compare.Follows order) (schedule schedule' : Schedule) (low high : Nat)
    (values : Array α) (leftLen rightLen : Nat) (memory : σ) :
    let effect := rangeEffect compare schedule low high values leftLen rightLen memory
    let effect' := rangeEffect compare schedule' low high values leftLen rightLen memory
    effect.verdict = effect'.verdict ∧ effect.values = effect'.values := by
  unfold rangeEffect
  cases Admission.forRange values.size low high leftLen rightLen with
  | idle => exact ⟨rfl, rfl⟩
  | refused error => exact ⟨rfl, rfl⟩
  | ready =>
    simp only [Admission.effect, listSort_of_follows hfollows]
    exact ⟨trivial, trivial⟩

/-- Under two schedules the same calls are made, though not in the same order. -/
theorem rangeEffect_calls (order : α → α → Ordering) (schedule schedule' : Schedule)
    (low high : Nat) (values : Array α) (leftLen rightLen : Nat) (calls : CallLog α) :
    let compare := (Oracle.ofOrder order).comparator
    (rangeEffect compare schedule low high values leftLen rightLen calls).memory.toList.Perm
      (rangeEffect compare schedule' low high values leftLen rightLen calls).memory.toList := by
  intro compare
  unfold rangeEffect
  cases Admission.forRange values.size low high leftLen rightLen with
  | idle => exact List.Perm.refl _
  | refused error => exact List.Perm.refl _
  | ready =>
    exact (listSort_calls order schedule _ calls).trans (listSort_calls order schedule' _ calls).symm

/-- The fork-join sort agrees with the sequential sort on every input, whatever order the answers
    follow, whatever the schedule and whatever the buffers hold: same verdict, same values, and the
    same calls up to their order. -/
theorem forkJoin_agrees_with_sequential (order : α → α → Ordering) (schedule : Schedule)
    (values : Array α) (hfits : values.size < wordLimit) :
    let compare := (Oracle.ofOrder order).comparator
    (∀ (low high : Nat) (scratch : Scratch α), ∃ sequential forked : Outcome (CallLog α) α,
      Sequential.sortRangeBy compare low high ⟨values, scratch⟩ #[] = .ok sequential ∧
      ForkJoin.sortRangeBy compare schedule low high ⟨values, scratch⟩ #[] = .ok forked ∧
      forked.verdict = sequential.verdict ∧
      forked.workspace.values = sequential.workspace.values ∧
      forked.memory.toList.Perm sequential.memory.toList) ∧
    ∃ sequential forked : Array α × CallLog α,
      Sequential.sortBy compare values #[] = .ok sequential ∧
      ForkJoin.sortBy compare schedule values #[] = .ok forked ∧
      forked.1 = sequential.1 ∧ forked.2.toList.Perm sequential.2.toList := by
  intro compare
  have hfollows : compare.Follows order := Oracle.ofOrder_follows order
  constructor
  · intro low high scratch
    obtain ⟨_, -, hsequential⟩ :=
      Sequential.sortRangeBy_hasEffect compare low high values scratch #[] hfits
    obtain ⟨_, -, hforked⟩ :=
      ForkJoin.sortRangeBy_hasEffect compare schedule low high values scratch #[] hfits
    have hsame := rangeEffect_of_follows hfollows (schedule.forked (high - low + 1)) .leftFirst
      low high values scratch.left.size scratch.right.size #[]
    exact ⟨_, _, hsequential, hforked, hsame.1, hsame.2, rangeEffect_calls order _ _ _ _ _ _ _ _⟩
  · refine ⟨_, _, Sequential.sortBy_eq_ok compare values #[] hfits,
      ForkJoin.sortBy_eq_ok compare schedule values #[] hfits, ?_, ?_⟩
    · rw [listSort_of_follows hfollows, listSort_of_follows hfollows]
    · exact (listSort_calls order _ _ _).trans (listSort_calls order _ _ _).symm

/-- Enough items for forks at two levels, a schedule that starts on the right at every other level,
    and an order in which every item is less than every other. -/
theorem forkJoin_agrees_with_sequential_alternating :
    let values := Array.range 9000
    let schedule : Schedule := fun path => if path.length % 2 = 0 then .right else .left
    let compare := (Oracle.ofOrder fun _ _ : Nat => .lt).comparator
    values.size < wordLimit ∧
    (∀ (low high : Nat) (scratch : Scratch Nat), ∃ sequential forked : Outcome (CallLog Nat) Nat,
      Sequential.sortRangeBy compare low high ⟨values, scratch⟩ #[] = .ok sequential ∧
      ForkJoin.sortRangeBy compare schedule low high ⟨values, scratch⟩ #[] = .ok forked ∧
      forked.verdict = sequential.verdict ∧
      forked.workspace.values = sequential.workspace.values ∧
      forked.memory.toList.Perm sequential.memory.toList) ∧
    ∃ sequential forked : Array Nat × CallLog Nat,
      Sequential.sortBy compare values #[] = .ok sequential ∧
      ForkJoin.sortBy compare schedule values #[] = .ok forked ∧
      forked.1 = sequential.1 ∧ forked.2.toList.Perm sequential.2.toList := by
  intro values schedule compare
  have hfits : values.size < wordLimit := by
    rw [Array.size_range]
    decide
  exact ⟨hfits, forkJoin_agrees_with_sequential (fun _ _ => .lt) schedule values hfits⟩

end MicroBench

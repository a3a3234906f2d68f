import Mathlib.Algebra.Group.Nat.Defs
import MicroBench.Proofs.Piecewise

/-! # The capacity of scratch buffers

  A sort checks its two buffers one after the other, each against one half of the range. The capacity
  is a single number that says the same: a range is accepted if and only if it is not longer than that,
  whatever the lengths of the buffers are.

  Buffers that were made for a length have this length as their capacity. The capacity is computed with
  words, and it doubles the length of the left buffer, so there is one exception: the last word is odd,
  and half of it, rounded up, has a double that is no word. Only items that take no space can be as
  many; for all others there is no such buffer.

  - `Scratch.capacityOf_eq_ok` and `Scratch.capacityOf_halves` compute capacities.
  - `rangeFits_iff_le` compares the two checks with the one number, and
    `Engine.sortRangeBy_accepted_iff` says when a call is accepted.
  - `capacity_bounds_accepted_ranges` is the result for buffers of any lengths, and
    `fitted_buffers_have_capacity` the one for buffers that were made for a length.
-/

namespace MicroBench

variable {σ α : Type}

/-! ## Buffers of any lengths -/

theorem Scratch.capacityOf_eq_ok {leftLen rightLen : Nat} (hleft : leftLen * 2 < wordLimit)
    (hright : rightLen * 2 + 1 < wordLimit) :
    Scratch.capacityOf leftLen rightLen = .ok (min (2 * leftLen) (2 * rightLen + 1)) := by
  unfold Scratch.capacityOf
  rw [require_of _ hleft, require_of _ (by omega), require_of _ hright, Nat.mul_comm leftLen 2,
    Nat.mul_comm rightLen 2]
  rfl

/-- Both halves of a range fit into their buffers if and only if the range is not longer than the number
    that the capacity is computed from. An odd item counts on the left, so the left buffer bounds an
    even number of items and the right buffer an odd one. -/
theorem rangeFits_iff_le (workspace : Workspace α) {low high : Nat} (hlow : low < high)
    (hhigh : high < workspace.values.size) :
    RangeFits workspace low high ↔ high - low + 1 ≤
      min (2 * workspace.scratch.left.size) (2 * workspace.scratch.right.size + 1) := by
  unfold RangeFits
  rw [imp_iff_right hlow]
  omega

/-- A sort of a range ends without a fault, and it is accepted if and only if its arguments fit. -/
theorem Engine.sortRangeBy_accepted_iff (engine : Engine) (compare : Comparator σ α)
    (schedule : Schedule) (low high : Nat) (workspace : Workspace α) (memory : σ)
    (hfits : workspace.values.size < wordLimit) :
    ∃ outcome, engine.sortRangeBy compare schedule low high workspace memory = .ok outcome ∧
      (outcome.verdict = .ok () ↔ RangeFits workspace low high) := by
  obtain ⟨after, -, hcall⟩ := engine.sortRangeBy_hasEffect compare schedule low high
    workspace.values workspace.scratch memory hfits
  exact ⟨_, hcall, rangeEffect_accepted_iff compare _ workspace.values memory⟩

/-- The capacity of two buffers is the length of the longest range that they can sort. Any range of two
    items or more is accepted by both engines if it is not longer than that and refused if it is. A
    range that is accepted is sorted as well, if the answers of the comparator follow an order. -/
theorem capacity_bounds_accepted_ranges (scratch : Scratch α) (hleft : scratch.left.size < 2 ^ 63)
    (hright : scratch.right.size < 2 ^ 63) :
    ∃ capacity, scratch.capacity = .ok capacity ∧
      capacity = min (2 * scratch.left.size) (2 * scratch.right.size + 1) ∧
      ∀ (σ : Type) (engine : Engine) (compare : Comparator σ α) (schedule : Schedule)
        (values : Array α) (low high n : Nat) (memory : σ), values.size < wordLimit →
        low < high → high < values.size → n = high - low + 1 →
        ∃ outcome,
          engine.sortRangeBy compare schedule low high ⟨values, scratch⟩ memory = .ok outcome ∧
          (outcome.verdict = .ok () ↔ n ≤ capacity) ∧
          ∀ (order : α → α → Ordering) [IsStrictWeakOrder α (Precedes order)],
            compare.Follows order → n ≤ capacity →
            IsStableSort (Precedes order) (segment values low high)
              (segment outcome.workspace.values low high) := by
  have hword : wordLimit = 2 ^ 64 := rfl
  refine ⟨_, Scratch.capacityOf_eq_ok (by omega) (by omega), rfl, ?_⟩
  rintro σ engine compare schedule values low high n memory hfits hlow hhigh rfl
  have hle := rangeFits_iff_le ⟨values, scratch⟩ hlow hhigh
  obtain ⟨outcome, hcall, haccepted⟩ :=
    engine.sortRangeBy_accepted_iff compare schedule low high ⟨values, scratch⟩ memory hfits
  refine ⟨outcome, hcall, haccepted.trans hle, ?_⟩
  intro order _ hfollows hn
  obtain ⟨sorted, hsorted, -, -, -, hstable⟩ :=
    engine.sortRangeBy_stable hfollows schedule memory hfits (hle.mpr hn)
  -- The call has one outcome, so what is known of the sorted range is known of this one.
  rw [hcall, Except.ok.injEq] at hsorted
  rw [hsorted]
  exact hstable

/-- A left buffer of three items beside a right buffer of one: three items are sorted, four are
    refused. -/
theorem capacity_bounds_accepted_ranges_lopsided :
    let scratch : Scratch Nat := ⟨#[0, 0, 0], #[0]⟩
    let compare : Comparator Unit Nat := .ofOrder Ord.compare
    let values := #[6, 5, 4, 3, 2, 1]
    ∃ capacity, scratch.capacity = .ok capacity ∧ capacity = 3 ∧
      (∃ outcome,
        Sequential.sortRangeBy compare 1 3 ⟨values, scratch⟩ () = .ok outcome ∧
        outcome.verdict = .ok () ∧
        IsStableSort (Precedes Ord.compare) [5, 4, 3] (segment outcome.workspace.values 1 3)) ∧
      ∃ outcome,
        ForkJoin.sortRangeBy compare .leftFirst 1 4 ⟨values, scratch⟩ () = .ok outcome ∧
        ¬ outcome.verdict = .ok () := by
  intro scratch compare values
  obtain ⟨capacity, hcapacity, hthree, hranges⟩ :=
    capacity_bounds_accepted_ranges scratch (by decide) (by decide)
  subst hthree
  obtain ⟨short, hshort, hshortIff, hsorted⟩ := hranges Unit .sequential compare .leftFirst values
    1 3 3 () (by decide) (by decide) (by decide) rfl
  obtain ⟨long, hlong, hlongIff, -⟩ := hranges Unit .forkJoin compare .leftFirst values
    1 4 4 () (by decide) (by decide) (by decide) rfl
  refine ⟨_, hcapacity, rfl, ⟨short, hshort, hshortIff.mpr (by decide), ?_⟩, long, hlong, ?_⟩
  · exact hsorted Ord.compare (Comparator.ofOrder_follows Ord.compare) (by decide)
  · intro haccepted
    exact absurd (hlongIff.mp haccepted) (by decide)

/-! ## Buffers made for a length -/

/-- The left buffer is never the shorter one, so both can be had if it can. -/
theorem Scratch.withFill_eq (itemSize len : Nat) (fill : α) :
    Scratch.withFill itemSize len fill =
      if (len + 1) / 2 * itemSize ≤ bufferLimit then
        .ok ⟨Array.replicate ((len + 1) / 2) fill, Array.replicate (len / 2) fill⟩
      else .error .capacityOverflow := by
  have hceil : len - len / 2 = (len + 1) / 2 := by omega
  have hle : len / 2 * itemSize ≤ (len + 1) / 2 * itemSize :=
    Nat.mul_le_mul_right itemSize (by omega)
  unfold Scratch.withFill Scratch.lengthsFor runLengths reserve
  simp only [hceil]
  by_cases hroom : (len + 1) / 2 * itemSize ≤ bufferLimit
  · rw [if_pos hroom, if_pos hroom, if_pos (Nat.le_trans hle hroom)]
    rfl
  · rw [if_neg hroom, if_neg hroom]
    rfl

theorem Scratch.withFill_fails_iff {itemSize len : Nat} {fill : α} :
    (∃ error, Scratch.withFill itemSize len fill = .error error) ↔
      bufferLimit < (len + 1) / 2 * itemSize := by
  rw [Scratch.withFill_eq]
  by_cases hroom : (len + 1) / 2 * itemSize ≤ bufferLimit
  · rw [if_pos hroom]
    exact iff_of_false (by simp) (Nat.not_lt.mpr hroom)
  · rw [if_neg hroom]
    exact iff_of_true ⟨_, rfl⟩ (Nat.lt_of_not_le hroom)

theorem Scratch.withFill_eq_ok_iff {itemSize len : Nat} {fill : α} {scratch : Scratch α} :
    Scratch.withFill itemSize len fill = .ok scratch ↔
      (len + 1) / 2 * itemSize ≤ bufferLimit ∧
        scratch = ⟨Array.replicate ((len + 1) / 2) fill, Array.replicate (len / 2) fill⟩ := by
  rw [Scratch.withFill_eq]
  by_cases hroom : (len + 1) / 2 * itemSize ≤ bufferLimit
  · rw [if_pos hroom, Except.ok.injEq, and_iff_right hroom, eq_comm]
  · rw [if_neg hroom]
    exact iff_of_false (by simp) fun h => hroom h.1

/-- The capacity of the two halves of a length is that length, unless it is the last word. -/
theorem Scratch.capacityOf_halves {len : Nat} (hlen : len < wordLimit) :
    Scratch.capacityOf ((len + 1) / 2) (len / 2) =
      if len = 2 ^ 64 - 1 then .error .overflow else .ok len := by
  have hword : wordLimit = 2 ^ 64 := rfl
  by_cases hlast : len = 2 ^ 64 - 1
  · -- The last word is odd, and the double of its larger half is the first number that is no word.
    have hdouble : ¬ (len + 1) / 2 * 2 < wordLimit := by omega
    unfold Scratch.capacityOf require
    rw [if_pos hlast, if_neg hdouble]
    rfl
  · have hmin : min (2 * ((len + 1) / 2)) (2 * (len / 2) + 1) = len := by omega
    rw [if_neg hlast, Scratch.capacityOf_eq_ok (by omega) (by omega), hmin]

/-- Buffers made for a length have it as their capacity, unless it is the last word; then the items take
    no space, since there is no room for half as many bytes. -/
theorem Scratch.capacity_withFill {itemSize len : Nat} {fill : α} {scratch : Scratch α}
    (hlen : len < wordLimit) (hscratch : Scratch.withFill itemSize len fill = .ok scratch) :
    scratch.capacity = if itemSize = 0 ∧ len = 2 ^ 64 - 1 then .error .overflow else .ok len := by
  obtain ⟨hroom, rfl⟩ := Scratch.withFill_eq_ok_iff.mp hscratch
  unfold Scratch.capacity
  rw [Array.size_replicate, Array.size_replicate, Scratch.capacityOf_halves hlen]
  by_cases hlast : len = 2 ^ 64 - 1
  · have hnone : itemSize = 0 := by
      have hlimit : bufferLimit = 2 ^ 63 - 1 := rfl
      rw [hlast] at hroom
      omega
    rw [if_pos hlast, if_pos ⟨hnone, hlast⟩]
  · rw [if_neg hlast, if_neg fun h => hlast h.2]

/-- The buffers that a sequence is given have its length as their capacity, unless it is the last word. -/
theorem Scratch.capacity_forValues {values : Array α} (hfits : values.size < wordLimit) :
    (Scratch.forValues values).capacity =
      if values.size = 2 ^ 64 - 1 then .error .overflow else .ok values.size := by
  obtain ⟨hleft, hright⟩ := Scratch.forValues_lengths values
  have hceil : values.size - values.size / 2 = (values.size + 1) / 2 := by omega
  unfold Scratch.capacity
  rw [hleft, hright, hceil, Scratch.capacityOf_halves hfits]

/-- Buffers for `len` items can be had exactly if half of the items, rounded up, take no more bytes than
    a buffer can have. Then the left one holds so many copies of the given item and the right one a copy
    for each item of the other half, and their capacity is `len`. The capacity of the buffers for a
    sequence is its length. In one case the capacity leaves the words: if the items take no space and
    their number is the last word. -/
theorem fitted_buffers_have_capacity (itemSize len : Nat) (hlen : len < wordLimit) (fill : α) :
    ((∃ error, Scratch.withFill itemSize len fill = .error error) ↔
      2 ^ 63 - 1 < (len + 1) / 2 * itemSize) ∧
    (∀ scratch, Scratch.withFill itemSize len fill = .ok scratch →
      scratch.left = Array.replicate ((len + 1) / 2) fill ∧
      scratch.right = Array.replicate (len / 2) fill ∧
      scratch.capacity =
        if itemSize = 0 ∧ len = 2 ^ 64 - 1 then .error .overflow else .ok len) ∧
    ∀ values : Array α, values.size < wordLimit →
      (Scratch.forValues values).capacity =
        if values.size = 2 ^ 64 - 1 then .error .overflow else .ok values.size := by
  refine ⟨Scratch.withFill_fails_iff, ?_, ?_⟩
  · intro scratch hscratch
    have hcapacity := Scratch.capacity_withFill hlen hscratch
    obtain ⟨-, rfl⟩ := Scratch.withFill_eq_ok_iff.mp hscratch
    exact ⟨rfl, rfl, hcapacity⟩
  · intro values hfits
    exact Scratch.capacity_forValues hfits

/-- At the last two words: of items of one byte each, the last word is one too many. -/
theorem fitted_buffers_have_capacity_bytes :
    (∃ error, Scratch.withFill 1 (2 ^ 64 - 1) (0 : Int8) = .error error) ∧
    (∃ scratch, Scratch.withFill 1 (2 ^ 64 - 2) (0 : Int8) = .ok scratch ∧
      scratch.left = Array.replicate (2 ^ 63 - 1) 0 ∧
      scratch.right = Array.replicate (2 ^ 63 - 1) 0 ∧
      scratch.capacity = .ok (2 ^ 64 - 2)) ∧
    (Scratch.forValues #[7, 8, (9 : Int8)]).capacity = .ok 3 := by
  have hlast := fitted_buffers_have_capacity 1 (2 ^ 64 - 1) (by decide) (0 : Int8)
  have hbefore := fitted_buffers_have_capacity 1 (2 ^ 64 - 2) (by decide) (0 : Int8)
  have hmade := (Scratch.withFill_eq 1 (2 ^ 64 - 2) (0 : Int8)).trans (if_pos (by decide))
  exact ⟨hlast.1.mpr (by decide), ⟨_, hmade, hbefore.2.1 _ hmade⟩,
    hlast.2.2 #[7, 8, 9] (by decide)⟩

/-- Items that take no space, and the last word as their number: there are buffers for them, but the
    capacity of these buffers cannot be computed with words. -/
theorem fitted_buffers_overflow_at_last_word :
    (∃ scratch, Scratch.withFill (Item.byteSize Unit) (2 ^ 64 - 1) () = .ok scratch ∧
      scratch.capacity = .error .overflow) ∧
    (Scratch.forValues (Array.replicate (2 ^ 64 - 1) ())).capacity = .error .overflow := by
  constructor
  · have hmade := (Scratch.withFill_eq (Item.byteSize Unit) (2 ^ 64 - 1) ()).trans
      (if_pos (by decide))
    exact ⟨_, hmade, (Scratch.capacity_withFill (by decide) hmade).trans (if_pos ⟨rfl, rfl⟩)⟩
  · rw [Scratch.capacity_forValues (by rw [Array.size_replicate]; decide), Array.size_replicate,
      if_pos rfl]

end MicroBench

import MicroBench.Proofs.ForkJoin

/-! # Safety under any comparator

  A comparator may answer as it likes: by a script, by its memory, against its own answers. A call
  whose arguments were admitted still ends, without a fault at any level of the recursion, and it
  moves items inside its range only.

  - `Rearranged` says that a range holds the same items as before and the rest is as before.
  - `rangeEffect_rearranged` and `mergeEffect_rearranged` hold of all effects, refusals included.
  - `sorts_stay_in_bounds` is the result for all entries.
-/

namespace MicroBench

variable {σ α : Type}

/-- The slots `low`, …, `high` hold the items that they held before, in some order; every other
    slot is as before. -/
structure Rearranged (low high : Nat) (old new : Array α) : Prop where
  size : new.size = old.size
  perm : (segment new low high).Perm (segment old low high)
  outside : ∀ i, i < low ∨ high < i → new[i]? = old[i]?

theorem Rearranged.refl (low high : Nat) (values : Array α) : Rearranged low high values values :=
  ⟨rfl, .refl _, fun _ _ => rfl⟩

/-- A slot outside the replaced segment keeps its item. -/
theorem splice_getElem?_outside (values : Array α) {low high i : Nat} {items : List α}
    (hlow : low ≤ high + 1) (hhigh : high < values.size) (hitems : items.length = high + 1 - low)
    (hi : i < low ∨ high < i) : (splice values low high items)[i]? = values[i]? := by
  have hfront := length_take_toList values (show low ≤ values.size by omega)
  unfold splice
  rw [List.getElem?_toArray, ← Array.getElem?_toList]
  rcases hi with hi | hi
  · rw [List.append_assoc, List.getElem?_append_left (by omega), List.getElem?_take_of_lt hi]
  · have hlen := splice_front_length values hlow hhigh hitems
    rw [List.getElem?_append_right (by omega), hlen, List.getElem?_drop]
    congr 1
    omega

theorem splice_rearranged (values : Array α) {low high : Nat} {items : List α}
    (hlow : low ≤ high + 1) (hhigh : high < values.size)
    (hperm : items.Perm (segment values low high)) :
    Rearranged low high values (splice values low high items) := by
  have hitems : items.length = high + 1 - low := by
    rw [hperm.length_eq, segment_length values low hhigh]
  refine ⟨splice_size values hlow hhigh hitems, ?_, ?_⟩
  · rw [segment_splice values hlow hhigh hitems]
    exact hperm
  · intro i hi
    exact splice_getElem?_outside values hlow hhigh hitems hi

/-! ## Effects -/

/-- A sort of a range moves items inside it only, under every schedule. -/
theorem rangeEffect_rearranged (compare : Comparator σ α) (schedule : Schedule) (low high : Nat)
    (values : Array α) (leftLen rightLen : Nat) (memory : σ) :
    Rearranged low high values
      (rangeEffect compare schedule low high values leftLen rightLen memory).values := by
  unfold rangeEffect
  cases hadmission : Admission.forRange values.size low high leftLen rightLen with
  | idle => exact .refl low high values
  | refused error => exact .refl low high values
  | ready =>
    obtain ⟨hlow, hhigh, -, -⟩ := Admission.forRange_eq_ready_iff.mp hadmission
    exact splice_rearranged values (by omega) hhigh (listSort_perm compare schedule _ memory)

/-- A merge moves items inside its range only. -/
theorem mergeEffect_rearranged (compare : Comparator σ α) (low mid high : Nat) (values : Array α)
    (leftLen rightLen : Nat) (memory : σ) :
    Rearranged low high values
      (mergeEffect compare low mid high values leftLen rightLen memory).values := by
  unfold mergeEffect
  cases hadmission : Admission.forMerge values.size low mid high leftLen rightLen with
  | idle => exact .refl low high values
  | refused error => exact .refl low high values
  | ready =>
    obtain ⟨hlow, hmid, hhigh, -, -⟩ := Admission.forMerge_eq_ready_iff.mp hadmission
    have hperm := listMerge_perm compare (segment values low mid) (segment values (mid + 1) high)
      memory
    rw [segment_append values (by omega) hmid] at hperm
    exact splice_rearranged values (by omega) hhigh hperm

/-! ## Calls -/

/-- The call ends without a fault, accepts its arguments and rearranges its range only. -/
def Completes (low high : Nat) (values : Array α) (call : Except Fault (Outcome σ α)) : Prop :=
  ∃ outcome, call = .ok outcome ∧ outcome.verdict = .ok () ∧
    Rearranged low high values outcome.workspace.values

/-- A call with an accepting and rearranging effect completes. -/
theorem HasEffect.completes {low high : Nat} {values : Array α} {scratch : Scratch α}
    {call : Except Fault (Outcome σ α)} {effect : Effect σ α} (heffect : HasEffect scratch call effect)
    (hverdict : effect.verdict = .ok ()) (hvalues : Rearranged low high values effect.values) :
    Completes low high values call := by
  obtain ⟨after, -, hcall⟩ := heffect
  exact ⟨_, hcall, hverdict, hvalues⟩

/-- Whatever the comparator answers, all entries of both engines complete on admitted arguments:
    no array is read or written out of its bounds, no copy has two lengths, no number leaves its
    word, and the items outside the range stay in place. A range of at most one item is always
    admitted.

    The two halves of a fork may get their answers mixed in time. Each mix of answers is also given,
    half by half, by some comparator with a memory, so none is left out. -/
theorem sorts_stay_in_bounds (compare : Comparator σ α) (schedule : Schedule) (values : Array α)
    (hfits : values.size < wordLimit) (scratch : Scratch α) (memory : σ) :
    (∀ low high : Nat,
      (low < high → high < values.size ∧ (high - low + 2) / 2 ≤ scratch.left.size ∧
        (high - low + 1) / 2 ≤ scratch.right.size) →
      Completes low high values
        (Sequential.sortRangeBy compare low high ⟨values, scratch⟩ memory) ∧
      Completes low high values
        (ForkJoin.sortRangeBy compare schedule low high ⟨values, scratch⟩ memory)) ∧
    (∀ low mid high : Nat, low ≤ mid → mid ≤ high → high < values.size →
      mid - low + 1 ≤ scratch.left.size → high - mid ≤ scratch.right.size →
      Completes low high values (mergeBy compare low mid high ⟨values, scratch⟩ memory)) ∧
    (∃ sorted memory', Sequential.sortBy compare values memory = .ok (sorted, memory') ∧
      sorted.size = values.size ∧ sorted.toList.Perm values.toList) ∧
    ∃ sorted memory', ForkJoin.sortBy compare schedule values memory = .ok (sorted, memory') ∧
      sorted.size = values.size ∧ sorted.toList.Perm values.toList := by
  refine ⟨?_, ?_, ?_, ?_⟩
  · intro low high hargs
    constructor
    · exact (Sequential.sortRangeBy_hasEffect compare low high values scratch memory hfits).completes
        ((rangeEffect_accepted_iff _ _ values memory).mpr hargs) (rangeEffect_rearranged _ _ _ _ _ _ _ _)
    · exact (ForkJoin.sortRangeBy_hasEffect compare schedule low high values scratch memory
        hfits).completes
        ((rangeEffect_accepted_iff _ _ values memory).mpr hargs) (rangeEffect_rearranged _ _ _ _ _ _ _ _)
  · intro low mid high hlow hmid hhigh hleft hright
    have haccepted := (mergeEffect_accepted_iff compare values memory).mpr
      ⟨hlow, hmid, hhigh, hleft, hright⟩
    exact (mergeBy_hasEffect compare low mid high values scratch memory hfits).completes haccepted
      (mergeEffect_rearranged _ _ _ _ _ _ _ _)
  · have hperm := listSort_perm compare .leftFirst values.toList memory
    exact ⟨_, _, Sequential.sortBy_eq_ok compare values memory hfits, hperm.length_eq, hperm⟩
  · have hperm := listSort_perm compare (schedule.forked values.size) values.toList memory
    exact ⟨_, _, ForkJoin.sortBy_eq_ok compare schedule values memory hfits, hperm.length_eq, hperm⟩

/-- Answers that come from a script and contradict each other, on a range that leaves one item on
    either side and with buffers longer than they need to be. -/
theorem sorts_stay_in_bounds_script :
    let compare := (Oracle.script #[.lt, .gt, .eq, .lt, .lt]).comparator
    let values := #[5, 3, 8, 1, 9, 2]
    let scratch : Scratch Nat := ⟨#[0, 0, 0], #[7, 7]⟩
    values.size < wordLimit ∧
    Completes 1 4 values (Sequential.sortRangeBy compare 1 4 ⟨values, scratch⟩ #[]) ∧
    Completes 1 4 values (ForkJoin.sortRangeBy compare .leftFirst 1 4 ⟨values, scratch⟩ #[]) ∧
    Completes 1 4 values (mergeBy compare 1 3 4 ⟨values, scratch⟩ #[]) := by
  intro compare values scratch
  have hfits : values.size < wordLimit := by decide
  have hsafe := sorts_stay_in_bounds compare .leftFirst values hfits scratch #[]
  have hrange := hsafe.1 1 4 (by decide)
  have hmerge := hsafe.2.1 1 3 4 (by decide) (by decide) (by decide) (by decide) (by decide)
  exact ⟨hfits, hrange.1, hrange.2, hmerge⟩

end MicroBench

import MicroBench.Proofs.Step

/-! # What a caller may rely on

  A call whose arguments fit is accepted. It does to the items of its range what the sort or the merge
  on lists does to them, and to the comparator's memory as well; everything outside the range stays,
  and the buffers keep their lengths. Nothing else is needed to reason about several calls in a row.

  - `RangeFits` says that the arguments of a sort of a range pass the checks.
  - `Performs` is the contract of a call, told by what was done on lists.
  - `Engine.sortRangeBy_performs` and `mergeBy_performs` are the contracts of the two kinds of calls.
-/

namespace MicroBench

variable {σ α : Type}

/-- The arguments of a sort of the range `[low, high]` pass the checks: the range has at most one
    item, or it lies inside the sequence and its halves fit into the buffers. -/
def RangeFits (workspace : Workspace α) (low high : Nat) : Prop :=
  low < high → high < workspace.values.size ∧
    (high - low + 2) / 2 ≤ workspace.scratch.left.size ∧
    (high - low + 1) / 2 ≤ workspace.scratch.right.size

/-- The checks look at lengths only. -/
theorem RangeFits.of_lengths {workspace workspace' : Workspace α} {low high : Nat}
    (hargs : RangeFits workspace low high) (hsize : workspace'.values.size = workspace.values.size)
    (hlengths : workspace'.scratch.SameLengths workspace.scratch) :
    RangeFits workspace' low high := by
  unfold RangeFits
  rw [hsize, hlengths.left, hlengths.right]
  exact hargs

/-- The call was accepted and left the items and the memory of `done` in its range `[low, high]`,
    with nothing changed outside. -/
structure Performs (low high : Nat) (workspace : Workspace α) (done : List α × σ)
    (outcome : Outcome σ α) : Prop where
  verdict : outcome.verdict = .ok ()
  lengths : outcome.workspace.scratch.SameLengths workspace.scratch
  outside : AgreesOutside low high workspace.values outcome.workspace.values
  range : segment outcome.workspace.values low high = done.1
  memory : outcome.memory = done.2

/-- A replaced segment is the only change. -/
theorem splice_agreesOutside (values : Array α) {low high : Nat} {items : List α}
    (hlow : low ≤ high + 1) (hhigh : high < values.size) (hitems : items.length = high + 1 - low) :
    AgreesOutside low high values (splice values low high items) := by
  refine ⟨splice_size values hlow hhigh hitems, ?_⟩
  intro i hi
  exact splice_getElem?_outside values hlow hhigh hitems hi

/-- A call with the effect of an admitted one performs what was done. -/
theorem HasEffect.performs_of_ready {low high : Nat} {workspace : Workspace α}
    {call : Except Fault (Outcome σ α)} {memory : σ} {done : List α × σ}
    (heffect : HasEffect workspace.scratch call
      (Admission.ready.effect low high workspace.values memory done))
    (hlow : low ≤ high + 1) (hhigh : high < workspace.values.size)
    (hlen : done.1.length = high + 1 - low) :
    ∃ outcome, call = .ok outcome ∧ Performs low high workspace done outcome := by
  obtain ⟨after, hlengths, hcall⟩ := heffect
  refine ⟨_, hcall, rfl, hlengths, ?_, ?_, rfl⟩
  · exact splice_agreesOutside workspace.values hlow hhigh hlen
  · exact segment_splice workspace.values hlow hhigh hlen

/-- The contract of a sort of a range with either engine. -/
theorem Engine.sortRangeBy_performs (engine : Engine) (compare : Comparator σ α)
    (schedule : Schedule) {low high : Nat} {workspace : Workspace α} (memory : σ)
    (hfits : workspace.values.size < wordLimit) (hargs : RangeFits workspace low high) :
    ∃ outcome, engine.sortRangeBy compare schedule low high workspace memory = .ok outcome ∧
      Performs low high workspace
        (listSort compare (engine.schedule schedule (high - low + 1))
          (segment workspace.values low high) memory) outcome := by
  have heffect := engine.sortRangeBy_hasEffect compare schedule low high workspace.values
    workspace.scratch memory hfits
  unfold rangeEffect at heffect
  by_cases hlow : low < high
  · obtain ⟨hhigh, hroom⟩ := hargs hlow
    rw [Admission.forRange_eq_ready_iff.mpr ⟨hlow, hhigh, hroom⟩] at heffect
    refine heffect.performs_of_ready (by omega) hhigh ?_
    rw [listSort_length, segment_length _ low hhigh]
  · -- There is nothing to sort, on the list as in place.
    have hshort := segment_length_of_idle workspace.values (show high ≤ low by omega)
    rw [Admission.forRange_eq_idle_iff.mpr (by omega)] at heffect
    obtain ⟨after, hlengths, hcall⟩ := heffect
    rw [listSort_of_short compare _ memory hshort]
    exact ⟨_, hcall, rfl, hlengths, .refl low high _, rfl, rfl⟩

/-- The contract of a merge of two neighbouring runs. -/
theorem mergeBy_performs (compare : Comparator σ α) {low mid high : Nat} {workspace : Workspace α}
    (memory : σ) (hfits : workspace.values.size < wordLimit) (hlow : low ≤ mid) (hmid : mid ≤ high)
    (hhigh : high < workspace.values.size) (hleft : mid - low + 1 ≤ workspace.scratch.left.size)
    (hright : high - mid ≤ workspace.scratch.right.size) :
    ∃ outcome, mergeBy compare low mid high workspace memory = .ok outcome ∧
      Performs low high workspace
        (listMerge compare (segment workspace.values low mid)
          (segment workspace.values (mid + 1) high) memory) outcome := by
  have heffect := mergeBy_hasEffect compare low mid high workspace.values workspace.scratch memory
    hfits
  unfold mergeEffect at heffect
  rw [Admission.forMerge_eq_ready_iff.mpr ⟨hlow, hmid, hhigh, hleft, hright⟩] at heffect
  refine heffect.performs_of_ready (by omega) hhigh ?_
  rw [listMerge_length, ← List.length_append, segment_append _ (by omega) hmid,
    segment_length _ low hhigh]

end MicroBench

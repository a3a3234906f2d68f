import MicroBench.Proofs.Merge

/-! # Effects of calls

  The effect of a call is what its caller may rely on: the verdict, the values and the comparator's
  memory. It is told here by the sort on lists, and of the scratch it knows the lengths alone.

  - `Admission.forRange` and `Admission.forMerge` are the checks of the arguments, which cannot
    fail themselves on a sequence whose length is a word.
  - `rangeEffect` and `mergeEffect` are the effects of the two kinds of calls.
  - `HasEffect` says that a call ends without a fault and with the given effect, and that the
    buffers keep their lengths. Whatever they held before, the effect is the same.
-/

namespace MicroBench

variable {σ α : Type}

/-! ## Admission -/

/-- What the check of a range of `len` items says. -/
def Admission.forRange (len low high leftLen rightLen : Nat) : Admission :=
  if high ≤ low then .idle
  else if len ≤ high then .refused (.rangeOutOfBounds low high len)
  else .ofScratch (runLengths (high - low + 1)).1 (runLengths (high - low + 1)).2 leftLen rightLen

/-- What the check of a merge on `len` items says. -/
def Admission.forMerge (len low mid high leftLen rightLen : Nat) : Admission :=
  if len ≤ high ∨ high < low then .refused (.rangeOutOfBounds low high len)
  else if mid < low ∨ high < mid then .refused (.splitOutOfRange low mid high)
  else .ofScratch (mid - low + 1) (high - mid) leftLen rightLen

section

variable {len low mid high leftLen rightLen : Nat}

/-- The check of a range does not fault: it subtracts and adds only inside the sequence. -/
theorem Admission.ofRange_eq_ok (hfits : len < wordLimit) :
    Admission.ofRange len low high leftLen rightLen =
      .ok (Admission.forRange len low high leftLen rightLen) := by
  unfold Admission.ofRange Admission.forRange
  by_cases hidle : high ≤ low
  · rw [if_pos hidle, if_pos hidle]
  · rw [if_neg hidle, if_neg hidle]
    by_cases hout : len ≤ high
    · rw [if_pos hout, if_pos hout]
    · rw [if_neg hout, if_neg hout, require_of _ (by omega)]
      rfl

/-- The check of a merge does not fault. -/
theorem Admission.ofMerge_eq_ok (hfits : len < wordLimit) :
    Admission.ofMerge len low mid high leftLen rightLen =
      .ok (Admission.forMerge len low mid high leftLen rightLen) := by
  unfold Admission.ofMerge Admission.forMerge
  by_cases hout : len ≤ high ∨ high < low
  · rw [if_pos hout, if_pos hout]
  · rw [if_neg hout, if_neg hout]
    by_cases hsplit : mid < low ∨ high < mid
    · rw [if_pos hsplit, if_pos hsplit]
    · rw [if_neg hsplit, if_neg hsplit, require_of _ (by omega), require_of _ (by omega)]
      rfl

theorem Admission.ofScratch_eq_ready_iff {requiredLeft requiredRight : Nat} :
    Admission.ofScratch requiredLeft requiredRight leftLen rightLen = .ready ↔
      requiredLeft ≤ leftLen ∧ requiredRight ≤ rightLen := by
  unfold Admission.ofScratch
  split
  · simp only [reduceCtorEq, false_iff]
    omega
  · split
    · simp only [reduceCtorEq, false_iff]
      omega
    · simp only [true_iff]
      omega

theorem Admission.ofScratch_ne_idle (requiredLeft requiredRight leftLen rightLen : Nat) :
    Admission.ofScratch requiredLeft requiredRight leftLen rightLen ≠ .idle := by
  unfold Admission.ofScratch
  split
  · simp
  · split <;> simp

/-- A range is idle for its ends alone. -/
theorem Admission.forRange_eq_idle_iff :
    Admission.forRange len low high leftLen rightLen = .idle ↔ high ≤ low := by
  unfold Admission.forRange
  by_cases hidle : high ≤ low
  · simp [hidle]
  · rw [if_neg hidle]
    split
    · simp [hidle]
    · simp [hidle, Admission.ofScratch_ne_idle]

/-- A merge is never idle. -/
theorem Admission.forMerge_ne_idle (len low mid high leftLen rightLen : Nat) :
    Admission.forMerge len low mid high leftLen rightLen ≠ .idle := by
  unfold Admission.forMerge
  split
  · simp
  · split
    · simp
    · exact Admission.ofScratch_ne_idle _ _ _ _

/-- A range is sorted if it has two items or more, lies inside the sequence, and its two halves
    fit into the buffers. -/
theorem Admission.forRange_eq_ready_iff :
    Admission.forRange len low high leftLen rightLen = .ready ↔
      low < high ∧ high < len ∧ (high - low + 2) / 2 ≤ leftLen ∧
        (high - low + 1) / 2 ≤ rightLen := by
  unfold Admission.forRange
  split
  · simp only [reduceCtorEq, false_iff]
    omega
  · split
    · simp only [reduceCtorEq, false_iff]
      omega
    · rw [Admission.ofScratch_eq_ready_iff, runLengths_fst, runLengths_snd]
      omega

/-- Two runs are merged if the split lies inside their range, the range inside the sequence, and
    the runs fit into the buffers. -/
theorem Admission.forMerge_eq_ready_iff :
    Admission.forMerge len low mid high leftLen rightLen = .ready ↔
      low ≤ mid ∧ mid ≤ high ∧ high < len ∧ mid - low + 1 ≤ leftLen ∧
        high - mid ≤ rightLen := by
  unfold Admission.forMerge
  split
  · simp only [reduceCtorEq, false_iff]
    omega
  · split
    · simp only [reduceCtorEq, false_iff]
      omega
    · rw [Admission.ofScratch_eq_ready_iff]
      omega

end

/-! ## Effects -/

/-- What a call leaves, apart from the contents of the buffers. -/
structure Effect (σ α : Type) where
  verdict : Except SortError Unit
  values : Array α
  memory : σ

/-- The effect of a call whose arguments are admitted or not: if they are, the slots `low`, …,
    `high` hold the given items afterwards. -/
def Admission.effect (admission : Admission) (low high : Nat) (values : Array α) (memory : σ)
    (done : List α × σ) : Effect σ α :=
  match admission with
  | .idle => ⟨.ok (), values, memory⟩
  | .refused error => ⟨.error error, values, memory⟩
  | .ready => ⟨.ok (), splice values low high done.1, done.2⟩

/-- The effect of a sort of the range `[low, high]` under a schedule, with buffers of the given
    lengths. -/
def rangeEffect (compare : Comparator σ α) (schedule : Schedule) (low high : Nat)
    (values : Array α) (leftLen rightLen : Nat) (memory : σ) : Effect σ α :=
  (Admission.forRange values.size low high leftLen rightLen).effect low high values memory
    (listSort compare schedule (segment values low high) memory)

/-- A range inside the sequence whose halves fit into the buffers is sorted, also a range of one
    item, which needs no sorting. -/
theorem rangeEffect_of_room (compare : Comparator σ α) (schedule : Schedule) (values : Array α)
    (memory : σ) {low high leftLen rightLen : Nat} (hlow : low ≤ high) (hhigh : high < values.size)
    (hleft : (high - low + 2) / 2 ≤ leftLen) (hright : (high - low + 1) / 2 ≤ rightLen) :
    rangeEffect compare schedule low high values leftLen rightLen memory =
      ⟨.ok (), splice values low high (listSort compare schedule (segment values low high) memory).1,
        (listSort compare schedule (segment values low high) memory).2⟩ := by
  unfold rangeEffect
  rcases Nat.lt_or_eq_of_le hlow with hlt | heq
  · rw [Admission.forRange_eq_ready_iff.mpr ⟨hlt, hhigh, hleft, hright⟩]
    rfl
  · have hlen : (segment values low high).length < 2 := by
      rw [segment_length values low hhigh]
      omega
    have hidle : Admission.forRange values.size low high leftLen rightLen = .idle :=
      Admission.forRange_eq_idle_iff.mpr (by omega)
    rw [hidle, listSort_of_short compare schedule memory hlen, splice_segment values (by omega)]
    rfl

/-- The effect of a merge of the runs `[low, mid]` and `[mid + 1, high]`. -/
def mergeEffect (compare : Comparator σ α) (low mid high : Nat) (values : Array α)
    (leftLen rightLen : Nat) (memory : σ) : Effect σ α :=
  (Admission.forMerge values.size low mid high leftLen rightLen).effect low high values memory
    (listMerge compare (segment values low mid) (segment values (mid + 1) high) memory)

/-- A sort of a range is accepted if the range has at most one item, or lies inside the sequence and
    its halves fit into the buffers. -/
theorem rangeEffect_accepted_iff (compare : Comparator σ α) (schedule : Schedule) (values : Array α)
    (memory : σ) {low high leftLen rightLen : Nat} :
    (rangeEffect compare schedule low high values leftLen rightLen memory).verdict = .ok () ↔
      (low < high → high < values.size ∧ (high - low + 2) / 2 ≤ leftLen ∧
        (high - low + 1) / 2 ≤ rightLen) := by
  unfold rangeEffect
  by_cases hlow : low < high
  · rw [imp_iff_right hlow]
    cases hadmission : Admission.forRange values.size low high leftLen rightLen with
    | idle => exact absurd (Admission.forRange_eq_idle_iff.mp hadmission) (by omega)
    | refused error =>
      have hnot := mt Admission.forRange_eq_ready_iff.mpr (by rw [hadmission]; simp)
      exact iff_of_false (by simp [Admission.effect]) (fun hroom => hnot ⟨hlow, hroom⟩)
    | ready => exact iff_of_true rfl (Admission.forRange_eq_ready_iff.mp hadmission).2
  · rw [Admission.forRange_eq_idle_iff.mpr (by omega)]
    exact iff_of_true rfl (fun h => absurd h hlow)

/-- A merge is accepted if the split lies inside the range, the range inside the sequence, and the
    runs fit into the buffers. -/
theorem mergeEffect_accepted_iff (compare : Comparator σ α) (values : Array α) (memory : σ)
    {low mid high leftLen rightLen : Nat} :
    (mergeEffect compare low mid high values leftLen rightLen memory).verdict = .ok () ↔
      low ≤ mid ∧ mid ≤ high ∧ high < values.size ∧ mid - low + 1 ≤ leftLen ∧
        high - mid ≤ rightLen := by
  unfold mergeEffect
  rw [← Admission.forMerge_eq_ready_iff]
  cases hadmission : Admission.forMerge values.size low mid high leftLen rightLen with
  | idle => exact absurd hadmission (Admission.forMerge_ne_idle _ _ _ _ _ _)
  | refused error => simp [Admission.effect]
  | ready => exact iff_of_true rfl rfl

/-- The call ends without a fault and with the given effect; the buffers keep their lengths. -/
def HasEffect (scratch : Scratch α) (call : Except Fault (Outcome σ α)) (effect : Effect σ α) :
    Prop :=
  ∃ after : Scratch α, after.SameLengths scratch ∧
    call = .ok ⟨effect.verdict, ⟨effect.values, after⟩, effect.memory⟩

/-! ## The checked merge -/

/-- A merge of two runs that fit does to the segment what `listMerge` does to its two parts. -/
theorem mergeRuns_segment (compare : Comparator σ α) (values : Array α) (scratch : Scratch α)
    (memory : σ) {low mid high : Nat} (hlow : low ≤ mid) (hmid : mid ≤ high)
    (hhigh : high < values.size) (hfits : values.size < wordLimit)
    (hleft : mid - low + 1 ≤ scratch.left.size) (hright : high - mid ≤ scratch.right.size) :
    let merged := listMerge compare (segment values low mid) (segment values (mid + 1) high) memory
    ∃ after : Scratch α, after.SameLengths scratch ∧
      mergeRuns compare low mid high ⟨values, scratch⟩ memory =
        .ok (⟨splice values low high merged.1, after⟩, merged.2) := by
  intro merged
  have hbefore : low = (values.toList.take low).length :=
    (length_take_toList values (by omega)).symm
  have hxs : (segment values low mid).length = mid + 1 - low :=
    segment_length values low (by omega)
  have hys : (segment values (mid + 1) high).length = high + 1 - (mid + 1) :=
    segment_length values (mid + 1) hhigh
  have hend : high + 1 = mid + 1 + (segment values (mid + 1) high).length := by omega
  have hmerge := mergeRuns_parts compare (values.toList.take low) (segment values low mid)
    (segment values (mid + 1) high) (values.toList.drop (high + 1)) scratch memory hbefore hlow
    (by omega) hend (by omega) (by omega) (by omega)
  rw [splice_segments values hlow hmid] at hmerge
  exact hmerge

/-- The checked merge has the effect told by `listMerge`. -/
theorem mergeBy_hasEffect (compare : Comparator σ α) (low mid high : Nat) (values : Array α)
    (scratch : Scratch α) (memory : σ) (hfits : values.size < wordLimit) :
    HasEffect scratch (mergeBy compare low mid high ⟨values, scratch⟩ memory)
      (mergeEffect compare low mid high values scratch.left.size scratch.right.size memory) := by
  unfold mergeBy mergeEffect
  rw [Admission.ofMerge_eq_ok hfits]
  cases hadmission : Admission.forMerge values.size low mid high scratch.left.size
    scratch.right.size with
  | idle => exact ⟨scratch, .refl scratch, rfl⟩
  | refused error => exact ⟨scratch, .refl scratch, rfl⟩
  | ready =>
    obtain ⟨hlow, hmid, hhigh, hleft, hright⟩ := Admission.forMerge_eq_ready_iff.mp hadmission
    obtain ⟨after, hlengths, hmerge⟩ :=
      mergeRuns_segment compare values scratch memory hlow hmid hhigh hfits hleft hright
    refine ⟨after, hlengths, ?_⟩
    simp only [bind, Except.bind, hmerge]
    rfl

end MicroBench

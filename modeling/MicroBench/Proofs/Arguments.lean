import Mathlib.Algebra.Group.Nat.Defs
import MicroBench.Proofs.ForkJoin

/-! # Checked arguments

  A call looks at its arguments before it does anything else. If they do not fit, it is refused, and
  a refused call is as good as no call: the values and both buffers are as before, and the comparator
  was never asked. The checks add and subtract only numbers that earlier checks have bounded, so they
  do not fault, however large the arguments are.

  - `RangeFlaw` and `MergeFlaw` say what can be wrong with the arguments of the two kinds of calls.
  - `Settles` says that a call is refused for these reasons and no others.
  - `calls_check_arguments_first` is the result for both sorts of a range and the merge.
-/

namespace MicroBench

variable {σ α : Type}

/-! ## What can be wrong -/

/-- What is wrong with a sort of the range `[low, high]` of `len` items, with buffers of the given
    lengths. A reason counts only if those above it do not apply. Nothing is wrong with a range of at
    most one item, wherever it lies. -/
inductive RangeFlaw (len low high leftLen rightLen : Nat) : SortError → Prop where
  | outside (hlow : low < high) (hhigh : len ≤ high) :
    RangeFlaw len low high leftLen rightLen (.rangeOutOfBounds low high len)
  | leftTooSmall (hlow : low < high) (hhigh : high < len)
      (hleft : leftLen < (high - low + 2) / 2) :
    RangeFlaw len low high leftLen rightLen
      (.scratchTooSmall .left ((high - low + 2) / 2) leftLen)
  | rightTooSmall (hlow : low < high) (hhigh : high < len)
      (hleft : (high - low + 2) / 2 ≤ leftLen) (hright : rightLen < (high - low + 1) / 2) :
    RangeFlaw len low high leftLen rightLen
      (.scratchTooSmall .right ((high - low + 1) / 2) rightLen)

/-- What is wrong with a merge of the runs `[low, mid]` and `[mid + 1, high]` of `len` items. A range
    that ends before it starts is wrong here. -/
inductive MergeFlaw (len low mid high leftLen rightLen : Nat) : SortError → Prop where
  | outside (hrange : len ≤ high ∨ high < low) :
    MergeFlaw len low mid high leftLen rightLen (.rangeOutOfBounds low high len)
  | splitOutside (hlow : low ≤ high) (hhigh : high < len) (hsplit : mid < low ∨ high < mid) :
    MergeFlaw len low mid high leftLen rightLen (.splitOutOfRange low mid high)
  | leftTooSmall (hlow : low ≤ mid) (hmid : mid ≤ high) (hhigh : high < len)
      (hleft : leftLen < mid - low + 1) :
    MergeFlaw len low mid high leftLen rightLen
      (.scratchTooSmall .left (mid - low + 1) leftLen)
  | rightTooSmall (hlow : low ≤ mid) (hmid : mid ≤ high) (hhigh : high < len)
      (hleft : mid - low + 1 ≤ leftLen) (hright : rightLen < high - mid) :
    MergeFlaw len low mid high leftLen rightLen
      (.scratchTooSmall .right (high - mid) rightLen)

section

variable {len low mid high leftLen rightLen : Nat} {error : SortError}

/-- The buffers are refused for the first one that is too small. -/
theorem Admission.ofScratch_eq_refused_iff {requiredLeft requiredRight : Nat} :
    Admission.ofScratch requiredLeft requiredRight leftLen rightLen = .refused error ↔
      (leftLen < requiredLeft ∧ error = .scratchTooSmall .left requiredLeft leftLen) ∨
      (requiredLeft ≤ leftLen ∧ rightLen < requiredRight ∧
        error = .scratchTooSmall .right requiredRight rightLen) := by
  unfold Admission.ofScratch
  by_cases hleft : leftLen < requiredLeft
  · have hleft' : ¬ requiredLeft ≤ leftLen := by omega
    simp [hleft, hleft', eq_comm]
  · have hleft' : requiredLeft ≤ leftLen := by omega
    by_cases hright : rightLen < requiredRight
    · simp [hleft, hleft', hright, eq_comm]
    · simp [hleft, hright]

/-- The check of a range finds what is wrong with it. -/
theorem Admission.forRange_eq_refused_iff :
    Admission.forRange len low high leftLen rightLen = .refused error ↔
      RangeFlaw len low high leftLen rightLen error := by
  have hceil : (runLengths (high - low + 1)).1 = (high - low + 2) / 2 := by
    rw [runLengths_fst]
    omega
  unfold Admission.forRange
  rw [hceil, runLengths_snd]
  constructor
  · intro h
    split at h
    · exact absurd h (by simp)
    · next hlow =>
      split at h
      · next hhigh =>
        cases h
        exact .outside (by omega) hhigh
      · next hhigh =>
        rcases Admission.ofScratch_eq_refused_iff.mp h with ⟨hleft, rfl⟩ | ⟨hleft, hright, rfl⟩
        · exact .leftTooSmall (by omega) (by omega) hleft
        · exact .rightTooSmall (by omega) (by omega) hleft hright
  · intro hflaw
    cases hflaw with
    | outside hlow hhigh => rw [if_neg (by omega), if_pos hhigh]
    | leftTooSmall hlow hhigh hleft =>
      rw [if_neg (by omega), if_neg (by omega)]
      exact Admission.ofScratch_eq_refused_iff.mpr (.inl ⟨hleft, rfl⟩)
    | rightTooSmall hlow hhigh hleft hright =>
      rw [if_neg (by omega), if_neg (by omega)]
      exact Admission.ofScratch_eq_refused_iff.mpr (.inr ⟨hleft, hright, rfl⟩)

/-- The check of a merge finds what is wrong with it. -/
theorem Admission.forMerge_eq_refused_iff :
    Admission.forMerge len low mid high leftLen rightLen = .refused error ↔
      MergeFlaw len low mid high leftLen rightLen error := by
  unfold Admission.forMerge
  constructor
  · intro h
    split at h
    · next hrange =>
      cases h
      exact .outside hrange
    · next hrange =>
      split at h
      · next hsplit =>
        cases h
        exact .splitOutside (by omega) (by omega) hsplit
      · next hsplit =>
        rcases Admission.ofScratch_eq_refused_iff.mp h with ⟨hleft, rfl⟩ | ⟨hleft, hright, rfl⟩
        · exact .leftTooSmall (by omega) (by omega) (by omega) hleft
        · exact .rightTooSmall (by omega) (by omega) (by omega) hleft hright
  · intro hflaw
    cases hflaw with
    | outside hrange => rw [if_pos hrange]
    | splitOutside hlow hhigh hsplit => rw [if_neg (by omega), if_pos hsplit]
    | leftTooSmall hlow hmid hhigh hleft =>
      rw [if_neg (by omega), if_neg (by omega)]
      exact Admission.ofScratch_eq_refused_iff.mpr (.inl ⟨hleft, rfl⟩)
    | rightTooSmall hlow hmid hhigh hleft hright =>
      rw [if_neg (by omega), if_neg (by omega)]
      exact Admission.ofScratch_eq_refused_iff.mpr (.inr ⟨hleft, hright, rfl⟩)

end

/-! ## Calls -/

/-- The call ends without a fault. It is refused exactly for what is wrong with its arguments, and it
    is accepted if nothing is; if it is refused, the workspace and the memory are as before. -/
def Settles (flaw : SortError → Prop) (workspace : Workspace α) (memory : σ)
    (call : Except Fault (Outcome σ α)) : Prop :=
  ∃ outcome, call = .ok outcome ∧
    (∀ error, outcome.verdict = .error error ↔ flaw error) ∧
    (outcome.verdict = .ok () ↔ ∀ error, ¬ flaw error) ∧
    ∀ error, flaw error → outcome.workspace = workspace ∧ outcome.memory = memory

/-- A call with a flaw does nothing but name it. -/
theorem Settles.refused {flaw : SortError → Prop} {workspace : Workspace α} {memory : σ}
    {call : Except Fault (Outcome σ α)} {error : SortError}
    (hsettles : Settles flaw workspace memory call) (hflaw : flaw error) :
    call = .ok ⟨.error error, workspace, memory⟩ := by
  obtain ⟨⟨verdict, after, memory'⟩, rfl, hverdict, -, hsame⟩ := hsettles
  obtain ⟨rfl, rfl⟩ := hsame error hflaw
  obtain rfl : verdict = .error error := (hverdict error).mpr hflaw
  rfl

/-- A call settles the flaws that its admission is refused for, if it stops at a refusal and ends
    well otherwise. -/
theorem Admission.settles {admission : Admission} {flaw : SortError → Prop}
    {workspace : Workspace α} {memory : σ} {call : Except Fault (Outcome σ α)}
    (hflaw : ∀ error, admission = .refused error ↔ flaw error)
    (hrefused : ∀ error, admission = .refused error →
      call = .ok ⟨.error error, workspace, memory⟩)
    (haccepted : (∀ error, admission ≠ .refused error) →
      ∃ outcome, call = .ok outcome ∧ outcome.verdict = .ok ()) :
    Settles flaw workspace memory call := by
  by_cases h : ∃ error, admission = .refused error
  · obtain ⟨reason, hreason⟩ := h
    have honly : ∀ error, flaw error ↔ reason = error := by
      intro error
      rw [← hflaw, hreason, Admission.refused.injEq]
    refine ⟨_, hrefused reason hreason, ?_, ?_, fun _ _ => ⟨rfl, rfl⟩⟩
    · intro error
      rw [honly, Except.error.injEq]
    · refine iff_of_false (by simp) fun hnone => ?_
      exact hnone reason ((honly reason).mpr rfl)
  · have hnone : ∀ error, ¬ flaw error := fun error herror => h ⟨error, (hflaw error).mpr herror⟩
    obtain ⟨outcome, hcall, hverdict⟩ := haccepted fun error herror => h ⟨error, herror⟩
    refine ⟨outcome, hcall, ?_, iff_of_true hverdict hnone, fun error herror => ?_⟩
    · intro error
      exact iff_of_false (by simp [hverdict]) (hnone error)
    · exact absurd herror (hnone error)

/-- An effect whose admission is not refused is accepted. -/
theorem Admission.effect_accepted {admission : Admission}
    (hadmission : ∀ error, admission ≠ .refused error) (low high : Nat) (values : Array α)
    (memory : σ) (done : List α × σ) :
    (admission.effect low high values memory done).verdict = .ok () := by
  cases admission with
  | idle => rfl
  | refused error => exact absurd rfl (hadmission error)
  | ready => rfl

section

variable (compare : Comparator σ α) (schedule : Schedule) (values : Array α) (scratch : Scratch α)
  (memory : σ)

/-- The sequential sort of a range settles its flaws. -/
theorem Sequential.sortRangeBy_settles (low high : Nat) (hfits : values.size < wordLimit) :
    Settles (RangeFlaw values.size low high scratch.left.size scratch.right.size) ⟨values, scratch⟩
      memory (Sequential.sortRangeBy compare low high ⟨values, scratch⟩ memory) := by
  refine Admission.settles (fun _ => Admission.forRange_eq_refused_iff) ?_ ?_
  · intro error herror
    unfold Sequential.sortRangeBy
    rw [Admission.ofRange_eq_ok hfits, herror]
    rfl
  · intro hadmission
    obtain ⟨after, -, hcall⟩ :=
      Sequential.sortRangeBy_hasEffect compare low high values scratch memory hfits
    exact ⟨_, hcall, Admission.effect_accepted hadmission low high values memory _⟩

/-- The fork-join sort of a range settles the same flaws. -/
theorem ForkJoin.sortRangeBy_settles (low high : Nat) (hfits : values.size < wordLimit) :
    Settles (RangeFlaw values.size low high scratch.left.size scratch.right.size) ⟨values, scratch⟩
      memory (ForkJoin.sortRangeBy compare schedule low high ⟨values, scratch⟩ memory) := by
  refine Admission.settles (fun _ => Admission.forRange_eq_refused_iff) ?_ ?_
  · intro error herror
    unfold ForkJoin.sortRangeBy
    dsimp only
    rw [Admission.ofRange_eq_ok hfits, herror]
    rfl
  · intro hadmission
    obtain ⟨after, -, hcall⟩ :=
      ForkJoin.sortRangeBy_hasEffect compare schedule low high values scratch memory hfits
    exact ⟨_, hcall, Admission.effect_accepted hadmission low high values memory _⟩

/-- The merge settles its flaws. -/
theorem mergeBy_settles (low mid high : Nat) (hfits : values.size < wordLimit) :
    Settles (MergeFlaw values.size low mid high scratch.left.size scratch.right.size)
      ⟨values, scratch⟩ memory (mergeBy compare low mid high ⟨values, scratch⟩ memory) := by
  refine Admission.settles (fun _ => Admission.forMerge_eq_refused_iff) ?_ ?_
  · intro error herror
    unfold mergeBy
    rw [Admission.ofMerge_eq_ok hfits, herror]
    rfl
  · intro hadmission
    obtain ⟨after, -, hcall⟩ := mergeBy_hasEffect compare low mid high values scratch memory hfits
    exact ⟨_, hcall, Admission.effect_accepted hadmission low high values memory _⟩

/-- A range of at most one item is left alone by both sorts, even where there is no such item. -/
theorem sortRangeBy_of_idle {low high : Nat} (hidle : high ≤ low)
    (hfits : values.size < wordLimit) :
    Sequential.sortRangeBy compare low high ⟨values, scratch⟩ memory =
        .ok ⟨.ok (), ⟨values, scratch⟩, memory⟩ ∧
      ForkJoin.sortRangeBy compare schedule low high ⟨values, scratch⟩ memory =
        .ok ⟨.ok (), ⟨values, scratch⟩, memory⟩ := by
  have hadmission : Admission.ofRange values.size low high scratch.left.size scratch.right.size =
      .ok .idle := by
    rw [Admission.ofRange_eq_ok hfits, Admission.forRange_eq_idle_iff.mpr hidle]
  constructor
  · unfold Sequential.sortRangeBy
    rw [hadmission]
    rfl
  · unfold ForkJoin.sortRangeBy
    dsimp only
    rw [hadmission]
    rfl

end

/-- Every sort of a range and every merge checks its arguments first. A sort of at most one item does
    nothing. Any other call is refused exactly for the first thing that is wrong with its arguments;
    then the values and both buffers stay as they were and the oracle is never asked, so the log of
    its calls does not grow. No check faults, whatever the arguments are. -/
theorem calls_check_arguments_first (oracle : Oracle α) (schedule : Schedule) (values : Array α)
    (hfits : values.size < wordLimit) (scratch : Scratch α) (calls : CallLog α) :
    (∀ low high : Nat,
      (high ≤ low →
        Sequential.sortRangeBy oracle.comparator low high ⟨values, scratch⟩ calls =
          .ok ⟨.ok (), ⟨values, scratch⟩, calls⟩ ∧
        ForkJoin.sortRangeBy oracle.comparator schedule low high ⟨values, scratch⟩ calls =
          .ok ⟨.ok (), ⟨values, scratch⟩, calls⟩) ∧
      Settles (RangeFlaw values.size low high scratch.left.size scratch.right.size)
        ⟨values, scratch⟩ calls
        (Sequential.sortRangeBy oracle.comparator low high ⟨values, scratch⟩ calls) ∧
      Settles (RangeFlaw values.size low high scratch.left.size scratch.right.size)
        ⟨values, scratch⟩ calls
        (ForkJoin.sortRangeBy oracle.comparator schedule low high ⟨values, scratch⟩ calls)) ∧
    ∀ low mid high : Nat,
      Settles (MergeFlaw values.size low mid high scratch.left.size scratch.right.size)
        ⟨values, scratch⟩ calls
        (mergeBy oracle.comparator low mid high ⟨values, scratch⟩ calls) := by
  constructor
  · intro low high
    refine ⟨?_, ?_, ?_⟩
    · intro hidle
      exact sortRangeBy_of_idle oracle.comparator schedule values scratch calls hidle hfits
    · exact Sequential.sortRangeBy_settles oracle.comparator values scratch calls low high hfits
    · exact ForkJoin.sortRangeBy_settles oracle.comparator schedule values scratch calls low high hfits
  · intro low mid high
    exact mergeBy_settles oracle.comparator values scratch calls low mid high hfits

/-- The largest words as arguments: a sort up to the last word and a merge from there are out of
    bounds, and a sort that ends where it starts is nothing to do. Inside the sequence, the right
    buffer is one slot too short for the sort. -/
theorem calls_check_arguments_first_at_limits :
    let compare := (Oracle.constant .lt : Oracle Nat).comparator
    let values := #[4, 3, 2, 1]
    let scratch : Scratch Nat := ⟨#[0, 0], #[0]⟩
    let last := 2 ^ 64 - 1
    values.size < wordLimit ∧
    Sequential.sortRangeBy compare last last ⟨values, scratch⟩ #[] =
      .ok ⟨.ok (), ⟨values, scratch⟩, #[]⟩ ∧
    Sequential.sortRangeBy compare 0 last ⟨values, scratch⟩ #[] =
      .ok ⟨.error (.rangeOutOfBounds 0 last 4), ⟨values, scratch⟩, #[]⟩ ∧
    ForkJoin.sortRangeBy compare .leftFirst 0 3 ⟨values, scratch⟩ #[] =
      .ok ⟨.error (.scratchTooSmall .right 2 1), ⟨values, scratch⟩, #[]⟩ ∧
    mergeBy compare last last 0 ⟨values, scratch⟩ #[] =
      .ok ⟨.error (.rangeOutOfBounds last 0 4), ⟨values, scratch⟩, #[]⟩ := by
  intro compare values scratch last
  have hfits : values.size < wordLimit := by decide
  have hcheck := calls_check_arguments_first (.constant .lt) .leftFirst values hfits scratch #[]
  refine ⟨hfits, ((hcheck.1 last last).1 (Nat.le_refl last)).1, ?_, ?_, ?_⟩
  · exact (hcheck.1 0 last).2.1.refused (.outside (by decide) (by decide))
  · exact (hcheck.1 0 3).2.2.refused
      (.rightTooSmall (by decide) (by decide) (by decide) (by decide))
  · exact (hcheck.2 last last 0).refused (.outside (.inr (by decide)))

end MicroBench

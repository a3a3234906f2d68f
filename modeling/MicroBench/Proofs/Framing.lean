import MicroBench.Proofs.Positions

/-! # Sorting inside a larger workspace

  The sort of a range never looks at what stands around the range, and it uses no more of the buffers
  than it needs. So it does not matter whether it works on a range of a sequence or on a copy of that
  range: both runs ask the same questions in the same order, and whatever one of them has done to the
  copy, the other has done to the range. This holds for every comparator. Not even one that remembers
  all calls can tell the two runs apart, since it is asked the same in both.

  A `Frame` is what a workspace lacks to be a larger one. The two runs are led side by side:

  - `mergeRuns_inStep` is about one merge, inside a frame and without it.
  - `mergeSortRange_inStep` is the run over the recursion.
  - `ForkJoin.sortRangeBy_of_short`: a range that is not forked is cut out together with the fronts of
    the buffers, so the fork-join sort is the sequential sort there, buffers included.
  - `ranges_sort_like_their_copies` is the result. The comparator writes down its calls and answers.
-/

namespace MicroBench

variable {σ α : Type}

/-! ## Frames -/

/-- What stands around the values of a workspace and behind its buffers in a larger workspace. -/
structure Frame (α : Type) where
  before : List α
  behind : List α
  leftRest : List α
  rightRest : List α

/-- Longer buffers with the given ones at their fronts. -/
def Frame.extend (frame : Frame α) (scratch : Scratch α) : Scratch α :=
  ⟨(scratch.left.toList ++ frame.leftRest).toArray, (scratch.right.toList ++ frame.rightRest).toArray⟩

/-- The larger workspace. -/
def Frame.around (frame : Frame α) (workspace : Workspace α) : Workspace α :=
  ⟨(frame.before ++ workspace.values.toList ++ frame.behind).toArray, frame.extend workspace.scratch⟩

theorem Frame.le_extend (frame : Frame α) (scratch : Scratch α) :
    scratch.left.size ≤ (frame.extend scratch).left.size ∧
      scratch.right.size ≤ (frame.extend scratch).right.size := by
  simp [Frame.extend]

/-- Buffers that are longer than they need to be are loaded at their fronts. -/
theorem Frame.extend_load (frame : Frame α) {scratch : Scratch α} {xs ys : List α}
    (hleft : xs.length ≤ scratch.left.size) (hright : ys.length ≤ scratch.right.size) :
    (frame.extend scratch).load xs ys = frame.extend (scratch.load xs ys) := by
  have hleftDrop : (scratch.left.toList ++ frame.leftRest).drop xs.length =
      scratch.left.toList.drop xs.length ++ frame.leftRest :=
    List.drop_append_of_le_length hleft
  have hrightDrop : (scratch.right.toList ++ frame.rightRest).drop ys.length =
      scratch.right.toList.drop ys.length ++ frame.rightRest :=
    List.drop_append_of_le_length hright
  simp only [Frame.extend, Scratch.load, List.append_assoc, hleftDrop, hrightDrop]

/-! ## Runs in step -/

/-- Two workspaces whose arrays are equally long. -/
structure Workspace.SameLengths (a b : Workspace α) : Prop where
  values : a.values.size = b.values.size
  scratch : a.scratch.SameLengths b.scratch

theorem Workspace.SameLengths.refl (workspace : Workspace α) : workspace.SameLengths workspace :=
  ⟨rfl, .refl _⟩

theorem Workspace.SameLengths.trans {a b c : Workspace α} (hab : a.SameLengths b)
    (hbc : b.SameLengths c) : a.SameLengths c :=
  ⟨hab.values.trans hbc.values, hab.scratch.trans hbc.scratch⟩

/-- Two tasks run in step: the first one ends well on a workspace, and the second one does the same
    inside the frame, to the values, to the buffers and to the comparator's memory. -/
def InStep (frame : Frame α) (workspace : Workspace α)
    (task framed : Except Fault (Workspace α × σ)) : Prop :=
  ∃ after memory, task = .ok (after, memory) ∧ after.SameLengths workspace ∧
    framed = .ok (frame.around after, memory)

/-- A merge of two runs, inside a frame and without it. -/
theorem mergeRuns_parts_inStep (compare : Comparator σ α) (frame : Frame α)
    (before xs ys behind : List α) (scratch : Scratch α) (memory : σ) {low mid high : Nat}
    (hlow : low = before.length) (hlowMid : low ≤ mid) (hmid : mid + 1 = low + xs.length)
    (hhigh : high + 1 = mid + 1 + ys.length) (hfits : frame.before.length + (high + 1) < wordLimit)
    (hleft : xs.length ≤ scratch.left.size) (hright : ys.length ≤ scratch.right.size) :
    InStep frame ⟨(before ++ xs ++ ys ++ behind).toArray, scratch⟩
      (mergeRuns compare low mid high ⟨(before ++ xs ++ ys ++ behind).toArray, scratch⟩ memory)
      (mergeRuns compare (frame.before.length + low) (frame.before.length + mid)
        (frame.before.length + high)
        (frame.around ⟨(before ++ xs ++ ys ++ behind).toArray, scratch⟩) memory) := by
  obtain ⟨hlongerLeft, hlongerRight⟩ := frame.le_extend scratch
  -- In the frame, the two runs stand behind more items, and more items stand behind them.
  have hplain := mergeRuns_eq_ok compare before xs ys behind scratch memory hlow hlowMid hmid hhigh
    (by omega) hleft hright
  have hframed := mergeRuns_eq_ok compare (frame.before ++ before) xs ys (behind ++ frame.behind)
    (frame.extend scratch) memory
    (show frame.before.length + low = _ by rw [List.length_append, hlow])
    (show _ ≤ frame.before.length + mid by omega) (by omega)
    (show frame.before.length + high + 1 = _ by omega) (by omega) (by omega) (by omega)
  refine ⟨_, _, hplain, ⟨?_, Scratch.load_sameLengths hleft hright⟩, ?_⟩
  · simp only [List.size_toArray, List.length_append, listMerge_length]
    omega
  · rw [frame.extend_load hleft hright] at hframed
    simp only [Frame.around, List.append_assoc] at hframed ⊢
    exact hframed

/-- The same for the runs `[low, mid]` and `[mid + 1, high]` of a workspace. -/
theorem mergeRuns_inStep (compare : Comparator σ α) (frame : Frame α) (workspace : Workspace α)
    (memory : σ) {low mid high : Nat} (hlow : low ≤ mid) (hmid : mid ≤ high)
    (hhigh : high < workspace.values.size)
    (hfits : frame.before.length + workspace.values.size < wordLimit)
    (hleft : mid - low + 1 ≤ workspace.scratch.left.size)
    (hright : high - mid ≤ workspace.scratch.right.size) :
    InStep frame workspace (mergeRuns compare low mid high workspace memory)
      (mergeRuns compare (frame.before.length + low) (frame.before.length + mid)
        (frame.before.length + high) (frame.around workspace) memory) := by
  have hxs : (segment workspace.values low mid).length = mid + 1 - low :=
    segment_length workspace.values low (by omega)
  have hys : (segment workspace.values (mid + 1) high).length = high + 1 - (mid + 1) :=
    segment_length workspace.values (mid + 1) hhigh
  have hend : high + 1 = mid + 1 + (segment workspace.values (mid + 1) high).length := by omega
  have hmerge := mergeRuns_parts_inStep compare frame (workspace.values.toList.take low)
    (segment workspace.values low mid) (segment workspace.values (mid + 1) high)
    (workspace.values.toList.drop (high + 1)) workspace.scratch memory
    (length_take_toList workspace.values (by omega)).symm hlow (by omega) hend (by omega) (by omega)
    (by omega)
  rw [splice_segments workspace.values hlow hmid] at hmerge
  exact hmerge

/-- A range whose halves fit into the buffers is sorted inside a frame as it is without it. The
    induction is on the length of the range: the frame stays, and both runs go from one half to the
    next with the same memory. -/
theorem mergeSortRange_inStep (compare : Comparator σ α) (frame : Frame α) (workspace : Workspace α)
    (memory : σ) {low high : Nat} (hlow : low ≤ high) (hhigh : high < workspace.values.size)
    (hfits : frame.before.length + workspace.values.size < wordLimit)
    (hleft : (high - low + 2) / 2 ≤ workspace.scratch.left.size)
    (hright : (high - low + 1) / 2 ≤ workspace.scratch.right.size) :
    InStep frame workspace (mergeSortRange compare low high workspace memory)
      (mergeSortRange compare (frame.before.length + low) (frame.before.length + high)
        (frame.around workspace) memory) := by
  induction hn : high - low using Nat.strongRecOn generalizing low high workspace memory with
  | ind n ih =>
    subst hn
    by_cases hlt : low < high
    · obtain ⟨mid, hmid⟩ : ∃ mid, low + (high - low) / 2 = mid := ⟨_, rfl⟩
      have hframedMid : frame.before.length + low +
          (frame.before.length + high - (frame.before.length + low)) / 2 =
          frame.before.length + mid := by omega
      obtain ⟨front, frontMemory, hfront, hfrontLengths, hframedFront⟩ :=
        ih (mid - low) (by omega) workspace memory (show low ≤ mid by omega) (by omega) hfits
          (by omega) (by omega) rfl
      have hsize := hfrontLengths.values
      have hfrontLeft := hfrontLengths.scratch.left
      have hfrontRight := hfrontLengths.scratch.right
      obtain ⟨back, backMemory, hback, hbackLengths, hframedBack⟩ :=
        ih (high - (mid + 1)) (by omega) front frontMemory (show mid + 1 ≤ high by omega) (by omega)
          (by omega) (by omega) (by omega) rfl
      have hlengths := hbackLengths.trans hfrontLengths
      have hsize' := hlengths.values
      have hleft' := hlengths.scratch.left
      have hright' := hlengths.scratch.right
      -- Both runs have the sorted halves side by side, and the same memory.
      obtain ⟨after, afterMemory, hmerge, hmergeLengths, hframedMerge⟩ :=
        mergeRuns_inStep compare frame back backMemory (show low ≤ mid by omega)
          (show mid ≤ high by omega) (by omega) (by omega) (by omega) (by omega)
      refine ⟨after, afterMemory, ?_, hmergeLengths.trans hlengths, ?_⟩
      · rw [mergeSortRange_step hlt hmid (by omega) hfront hback, hmerge]
      · rw [mergeSortRange_step (by omega) hframedMid (by omega) hframedFront hframedBack,
          hframedMerge]
    · refine ⟨workspace, memory, ?_, .refl workspace, ?_⟩
      · exact mergeSortRange_of_idle compare workspace memory (by omega)
      · exact mergeSortRange_of_idle compare _ memory (by omega)

/-! ## A range cut out of a workspace -/

/-- The range `[low, high]` with buffers of the given lengths. -/
def Workspace.cut (workspace : Workspace α) (low high leftLen rightLen : Nat) : Workspace α :=
  ⟨workspace.values.extract low (high + 1),
   ⟨workspace.scratch.left.extract 0 leftLen, workspace.scratch.right.extract 0 rightLen⟩⟩

/-- What is left of the workspace when the range is cut out. -/
def Workspace.rest (workspace : Workspace α) (low high leftLen rightLen : Nat) : Frame α :=
  ⟨workspace.values.toList.take low, workspace.values.toList.drop (high + 1),
   workspace.scratch.left.toList.drop leftLen, workspace.scratch.right.toList.drop rightLen⟩

theorem Workspace.rest_around_cut (workspace : Workspace α) {low high : Nat} (leftLen rightLen : Nat)
    (hlow : low ≤ high) :
    (workspace.rest low high leftLen rightLen).around (workspace.cut low high leftLen rightLen) =
      workspace := by
  have hvalues := splice_segment workspace.values (show low ≤ high + 1 by omega)
  unfold splice segment at hvalues
  simp only [Frame.around, Frame.extend, Workspace.rest, Workspace.cut, hvalues,
    toList_extract_front, List.take_append_drop, Array.toArray_toList]

theorem Workspace.cut_lengths (workspace : Workspace α) (low : Nat) {high leftLen rightLen : Nat}
    (hhigh : high < workspace.values.size) (hleft : leftLen ≤ workspace.scratch.left.size)
    (hright : rightLen ≤ workspace.scratch.right.size) :
    (workspace.cut low high leftLen rightLen).values.size = high + 1 - low ∧
      (workspace.cut low high leftLen rightLen).scratch.left.size = leftLen ∧
      (workspace.cut low high leftLen rightLen).scratch.right.size = rightLen := by
  simp only [Workspace.cut, Array.size_extract]
  omega

/-- Buffers that were cut off are put back in front of what is left. -/
theorem Workspace.extend_rest (workspace : Workspace α) (low high : Nat) {leftLen rightLen : Nat}
    {used : Scratch α} (hleft : used.left.size = leftLen) (hright : used.right.size = rightLen) :
    (workspace.rest low high leftLen rightLen).extend used = workspace.scratch.rejoin used := by
  subst hleft hright
  have hwhole : ∀ front whole : Array α, (front.toList ++ whole.toList.drop front.size).toArray =
      front ++ whole.extract front.size whole.size := by
    intro front whole
    rw [← toList_extract_back, ← Array.toList_append, Array.toArray_toList]
  simp only [Frame.extend, Workspace.rest, Scratch.rejoin, hwhole]

/-- A cut may take the buffers as they are. -/
theorem Workspace.cut_whole (values : Array α) (scratch : Scratch α) (low high : Nat) :
    Workspace.cut ⟨values, scratch⟩ low high scratch.left.size scratch.right.size =
      ⟨values.extract low (high + 1), scratch⟩ := by
  simp [Workspace.cut]

theorem Workspace.rest_whole_around (values : Array α) (scratch : Scratch α) (low high : Nat)
    (after : Workspace α) :
    (Workspace.rest ⟨values, scratch⟩ low high scratch.left.size scratch.right.size).around after =
      ⟨splice values low high after.values.toList, after.scratch⟩ := by
  have hnone : ∀ buffer : Array α, buffer.toList.drop buffer.size = [] := fun buffer =>
    List.drop_of_length_le (Nat.le_of_eq Array.length_toList)
  simp [Workspace.rest, Frame.around, Frame.extend, splice, hnone]

/-- Sorting a range does to the workspace what sorting the cut does to the cut. -/
theorem mergeSortRange_cut_inStep (compare : Comparator σ α) (workspace : Workspace α) (memory : σ)
    {low high leftLen rightLen : Nat} (hlow : low ≤ high) (hhigh : high < workspace.values.size)
    (hfits : workspace.values.size < wordLimit) (hleft : (high - low + 2) / 2 ≤ leftLen)
    (hright : (high - low + 1) / 2 ≤ rightLen) (hleftLen : leftLen ≤ workspace.scratch.left.size)
    (hrightLen : rightLen ≤ workspace.scratch.right.size) :
    InStep (workspace.rest low high leftLen rightLen) (workspace.cut low high leftLen rightLen)
      (mergeSortRange compare 0 (high - low) (workspace.cut low high leftLen rightLen) memory)
      (mergeSortRange compare low high workspace memory) := by
  have hbefore : (workspace.rest low high leftLen rightLen).before.length = low :=
    length_take_toList workspace.values (by omega)
  obtain ⟨hsize, hcutLeft, hcutRight⟩ := workspace.cut_lengths low hhigh hleftLen hrightLen
  have hstep := mergeSortRange_inStep compare (workspace.rest low high leftLen rightLen)
    (workspace.cut low high leftLen rightLen) memory (Nat.zero_le (high - low)) (by omega) (by omega)
    (by omega) (by omega)
  rw [workspace.rest_around_cut leftLen rightLen hlow, hbefore, Nat.add_zero,
    Nat.add_sub_cancel' hlow] at hstep
  exact hstep

/-- A range that is too short to be forked is sorted as by the sequential sort, whatever the
    comparator and the schedule: same verdict, values, buffers and memory. -/
theorem ForkJoin.sortRangeBy_of_short (compare : Comparator σ α) (schedule : Schedule)
    {low high : Nat} (workspace : Workspace α) (memory : σ)
    (hfits : workspace.values.size < wordLimit) (hshort : high - low + 1 < minForkLen) :
    ForkJoin.sortRangeBy compare schedule low high workspace memory =
      Sequential.sortRangeBy compare low high workspace memory := by
  unfold ForkJoin.sortRangeBy Sequential.sortRangeBy
  dsimp only
  rw [Admission.ofRange_eq_ok hfits]
  cases hadmission : Admission.forRange workspace.values.size low high workspace.scratch.left.size
    workspace.scratch.right.size with
  | idle => rfl
  | refused error => rfl
  | ready =>
    obtain ⟨hlow, hhigh, hleft, hright⟩ := Admission.forRange_eq_ready_iff.mp hadmission
    have hhalf : (high - low + 2) / 2 = high - low + 1 - (high - low + 1) / 2 := by omega
    rw [hhalf] at hleft
    obtain ⟨hsize, hcutLeft, hcutRight⟩ := workspace.cut_lengths low hhigh hleft hright
    obtain ⟨after, memory', hcut, hlengths, hrange⟩ := mergeSortRange_cut_inStep compare workspace
      memory (Nat.le_of_lt hlow) hhigh hfits (Nat.le_of_eq hhalf) (Nat.le_refl _) hleft hright
    -- The slice and the fronts of the buffers that the fork-join sort takes are this cut.
    have hlen : (workspace.values.extract low (high + 1)).size = high - low + 1 := by
      rw [Array.size_extract]
      omega
    have hfork : forkSort compare schedule (workspace.values.extract low (high + 1))
        workspace.scratch memory =
          .ok (⟨after.values, workspace.scratch.rejoin after.scratch⟩, memory') := by
      apply forkSort_of_run schedule (by omega) (by omega) (by omega) (by omega)
      rw [hlen]
      exact hcut
    have hword : high + 1 < wordLimit := by omega
    have hinside : low ≤ high + 1 ∧ high + 1 ≤ workspace.values.size := by omega
    have hvalues := extract_append_eq_splice workspace.values low high after.values.toList
    rw [Array.toArray_toList] at hvalues
    simp only [bind, Except.bind, require_of _ hword, require_of _ hinside, hfork, hrange, pure,
      Except.pure, Frame.around, hvalues, workspace.extend_rest low high
        (hlengths.scratch.left.trans hcutLeft) (hlengths.scratch.right.trans hcutRight)]
    rfl

/-! ## Calls and answers -/

/-- The calls made so far with the answers that they got, the first one in front. -/
abbrev Transcript (α : Type) := Array (α × α × Ordering)

/-- The comparator that answers as the given one does and writes down what it is asked and what it
    answers. -/
def Comparator.recorded (compare : Comparator σ α) : Comparator (σ × Transcript α) α :=
  fun a b memory =>
    ((compare a b memory.1).1, (compare a b memory.1).2,
      memory.2.push (a, b, (compare a b memory.1).1))

/-- A sort is not disturbed by the writing. -/
theorem listSort_recorded (compare : Comparator σ α) (schedule : Schedule) (xs : List α) (memory : σ)
    (transcript : Transcript α) :
    (listSort compare.recorded schedule xs (memory, transcript)).1 =
        (listSort compare schedule xs memory).1 ∧
      (listSort compare.recorded schedule xs (memory, transcript)).2.1 =
        (listSort compare schedule xs memory).2 := by
  have hmirrors : compare.recorded.Mirrors compare id Prod.fst := fun _ _ _ => rfl
  have hsame := listSort_map hmirrors schedule xs (memory, transcript)
  rw [List.map_id, List.map_id] at hsame
  rw [hsame]
  exact ⟨rfl, rfl⟩

/-- With any buffers that are long enough, sorting the range `[low, high]` of the values and sorting a
    copy of the range end alike: the copy ends up as `sorted`, the range holds the same with everything
    around it as it was, the buffers end up equal, and the comparator's memory is `memory'` both times. -/
def SortsLikeCopy (compare : Comparator σ α) (values : Array α) (low high : Nat) (memory : σ)
    (sorted : Array α) (memory' : σ) : Prop :=
  ∀ scratch : Scratch α, (high - low + 2) / 2 ≤ scratch.left.size →
    (high - low + 1) / 2 ≤ scratch.right.size →
    ∃ after : Scratch α,
      mergeSortRange compare 0 (high - low) ⟨values.extract low (high + 1), scratch⟩ memory =
        .ok (⟨sorted, after⟩, memory') ∧
      mergeSortRange compare low high ⟨values, scratch⟩ memory =
        .ok (⟨values.extract 0 low ++ sorted ++ values.extract (high + 1), after⟩, memory')

/-- The copy of a range is sorted as the list of its items, and the range with it. -/
theorem sortsLikeCopy (compare : Comparator σ α) (values : Array α) (memory : σ) {low high : Nat}
    (hlow : low ≤ high) (hhigh : high < values.size) (hfits : values.size < wordLimit) :
    SortsLikeCopy compare values low high memory
      (listSort compare .leftFirst (segment values low high) memory).1.toArray
      (listSort compare .leftFirst (segment values low high) memory).2 := by
  intro scratch hleft hright
  have hlen := segment_length values low hhigh
  -- What the copy ends up as does not depend on the buffers.
  obtain ⟨after, -, hcopy⟩ := mergeSortRange_parts compare [] (segment values low high) [] scratch
    memory (show 0 = ([] : List α).length from rfl) (Nat.zero_le (high - low)) (by omega) (by omega)
    (by omega) (by omega)
  simp only [List.nil_append, List.append_nil] at hcopy
  obtain ⟨cut, memory', hcut, -, hrange⟩ := mergeSortRange_cut_inStep compare ⟨values, scratch⟩ memory
    hlow hhigh hfits hleft hright (Nat.le_refl _) (Nat.le_refl _)
  rw [Workspace.cut_whole] at hcut
  have hsame := Except.ok.inj (hcut.symm.trans hcopy)
  rw [Workspace.rest_whole_around, (Prod.mk.inj hsame).1, (Prod.mk.inj hsame).2] at hrange
  refine ⟨after, hcopy, ?_⟩
  rw [hrange, extract_append_eq_splice]

/-- For every comparator, with whatever memory: a range is sorted as a copy of it is sorted, by the same
    calls with the same answers in the same order, and the result stands where the range stood. So the
    fork-join sort of a range that is too short to be forked is the sequential sort, call by call. -/
theorem ranges_sort_like_their_copies (compare : Comparator σ α) (values : Array α)
    (hfits : values.size < wordLimit) (memory : σ) :
    (∀ low high : Nat, low ≤ high → high < values.size → ∃ sorted memory' transcript,
      SortsLikeCopy compare values low high memory sorted memory' ∧
      SortsLikeCopy compare.recorded values low high (memory, #[]) sorted (memory', transcript)) ∧
    ∀ (schedule : Schedule) (low high : Nat) (scratch : Scratch α), high - low + 1 < minForkLen →
      ∃ outcome : Outcome (σ × Transcript α) α,
        Sequential.sortRangeBy compare.recorded low high ⟨values, scratch⟩ (memory, #[]) =
          .ok outcome ∧
        ForkJoin.sortRangeBy compare.recorded schedule low high ⟨values, scratch⟩ (memory, #[]) =
          .ok outcome ∧
        (RangeFits ⟨values, scratch⟩ low high → outcome.verdict = .ok ()) := by
  constructor
  · intro low high hlow hhigh
    have hplain := sortsLikeCopy compare values memory hlow hhigh hfits
    have hrecorded := sortsLikeCopy compare.recorded values (memory, #[]) hlow hhigh hfits
    obtain ⟨hsorted, hmemory⟩ :=
      listSort_recorded compare .leftFirst (segment values low high) memory #[]
    rw [← hsorted, ← hmemory] at hplain
    exact ⟨_, _, _, hplain, hrecorded⟩
  · intro schedule low high scratch hshort
    obtain ⟨after, -, hsequential⟩ := Sequential.sortRangeBy_hasEffect compare.recorded low high
      values scratch (memory, #[]) hfits
    refine ⟨_, hsequential, ?_, (rangeEffect_accepted_iff _ _ values _).mpr⟩
    rw [ForkJoin.sortRangeBy_of_short compare.recorded schedule _ _ hfits hshort, hsequential]

/-- Four of seven items, with buffers longer than needed and with a comparator that counts its calls and
    says "less" to every third one, whatever the items are. -/
theorem ranges_sort_like_their_copies_counting :
    let compare : Comparator Nat Nat := fun a b count =>
      (if count % 3 = 0 then .lt else compareOfLessAndEq a b, count + 1)
    let values := #[9, 4, 7, 1, 8, 2, 6]
    let scratch : Scratch Nat := ⟨#[0, 0, 0], #[5, 5, 5, 5]⟩
    let schedule : Schedule := fun _ => .right
    values.size < wordLimit ∧
    (∃ sorted count transcript after,
      mergeSortRange compare.recorded 0 3 ⟨#[7, 1, 8, 2], scratch⟩ (0, #[]) =
        .ok (⟨sorted, after⟩, count, transcript) ∧
      mergeSortRange compare.recorded 2 5 ⟨values, scratch⟩ (0, #[]) =
        .ok (⟨#[9, 4] ++ sorted ++ #[6], after⟩, count, transcript)) ∧
    ∃ outcome,
      Sequential.sortRangeBy compare.recorded 2 5 ⟨values, scratch⟩ (0, #[]) = .ok outcome ∧
      ForkJoin.sortRangeBy compare.recorded schedule 2 5 ⟨values, scratch⟩ (0, #[]) = .ok outcome ∧
      outcome.verdict = .ok () := by
  intro compare values scratch schedule
  have hfits : values.size < wordLimit := by decide
  obtain ⟨hcopies, hengines⟩ := ranges_sort_like_their_copies compare values hfits 0
  obtain ⟨sorted, count, transcript, -, hcopy⟩ := hcopies 2 5 (by decide) (by decide)
  obtain ⟨after, hsorted, hspliced⟩ := hcopy scratch (by decide) (by decide)
  obtain ⟨outcome, hsequential, hforked, hverdict⟩ := hengines schedule 2 5 scratch (by decide)
  exact ⟨hfits, ⟨sorted, count, transcript, after, hsorted, hspliced⟩, outcome, hsequential, hforked,
    hverdict fun _ => by decide⟩

end MicroBench

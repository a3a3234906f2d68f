import MicroBench.Proofs.Sequential

/-! # The fork-join sort in place

  A fork hands each half of the range to a task of its own, together with a buffer that is as long
  as the half. The two tasks share nothing but the comparator's memory, so each one does to its
  half what `listSort` does, whichever runs first.

  - `join_eq_inTurn` is about one fork.
  - `forkSort_sortsLike` is the run of the recursion over all forks of a schedule.
  - `ForkJoin.sortRangeBy_hasEffect` and `ForkJoin.sortBy_eq_ok` lift this to the two entries.
-/

namespace MicroBench

variable {σ α : Type}

/-- Two tasks that sort like `f` and `g` and keep the lengths of their buffers do so when they are
    joined, in either order. -/
theorem join_eq_inTurn {left right : σ → Except Fault ((Array α × Array α) × σ)}
    {f g : σ → List α × σ} {leftLen rightLen : Nat} (first : Side) (memory : σ)
    (hleft : ∀ memory, ∃ after : Array α, after.size = leftLen ∧
      left memory = .ok (((f memory).1.toArray, after), (f memory).2))
    (hright : ∀ memory, ∃ after : Array α, after.size = rightLen ∧
      right memory = .ok (((g memory).1.toArray, after), (g memory).2)) :
    let halves := inTurn first f g memory
    ∃ leftAfter rightAfter : Array α, leftAfter.size = leftLen ∧ rightAfter.size = rightLen ∧
      join first left right memory =
        .ok ((halves.1.toArray, leftAfter), (halves.2.1.toArray, rightAfter), halves.2.2) := by
  cases first with
  | left =>
    obtain ⟨leftAfter, hleftLen, hleftRun⟩ := hleft memory
    obtain ⟨rightAfter, hrightLen, hrightRun⟩ := hright (f memory).2
    refine ⟨leftAfter, rightAfter, hleftLen, hrightLen, ?_⟩
    simp only [join, inTurn, bind, Except.bind, hleftRun, hrightRun, pure, Except.pure]
  | right =>
    obtain ⟨rightAfter, hrightLen, hrightRun⟩ := hright memory
    obtain ⟨leftAfter, hleftLen, hleftRun⟩ := hleft (g memory).2
    refine ⟨leftAfter, rightAfter, hleftLen, hrightLen, ?_⟩
    simp only [join, inTurn, bind, Except.bind, hleftRun, hrightRun, pure, Except.pure]

/-- Buffers whose fronts were used keep their lengths. -/
theorem Scratch.rejoin_sameLengths {whole used : Scratch α}
    (hleft : used.left.size ≤ whole.left.size) (hright : used.right.size ≤ whole.right.size) :
    (whole.rejoin used).SameLengths whole := by
  constructor
  · simp only [Scratch.rejoin, Array.size_append, Array.size_extract]
    omega
  · simp only [Scratch.rejoin, Array.size_append, Array.size_extract]
    omega

/-! ## The recursion -/

/-- The fork-join sort of a slice whose halves fit into the buffers does what `listSort` does. -/
def ForkSortsLike (compare : Comparator σ α) (schedule : Schedule) (values : Array α) : Prop :=
  ∀ (scratch : Scratch α) (memory : σ),
    values.size - values.size / 2 ≤ scratch.left.size → values.size / 2 ≤ scratch.right.size →
    ∃ after : Scratch α, after.SameLengths scratch ∧
      forkSort compare schedule values scratch memory =
        .ok (⟨(listSort compare (schedule.forked values.size) values.toList memory).1.toArray,
          after⟩, (listSort compare (schedule.forked values.size) values.toList memory).2)

/-- A task with a buffer of its own splits the buffer where the values are split. -/
theorem ownedSort_eq_ok (compare : Comparator σ α) (schedule : Schedule) (values buffer : Array α)
    (memory : σ) (hfork : 2 ≤ values.size → ForkSortsLike compare schedule values)
    (hbuffer : buffer.size = values.size) :
    ∃ after : Array α, after.size = buffer.size ∧
      ownedSort compare schedule values buffer memory =
        .ok (((listSort compare (schedule.forked values.size) values.toList memory).1.toArray,
          after), (listSort compare (schedule.forked values.size) values.toList memory).2) := by
  rw [ownedSort]
  by_cases hshort : values.size < 2
  · refine ⟨buffer, rfl, ?_⟩
    rw [if_pos hshort, listSort_of_short compare _ memory hshort]
  · obtain ⟨after, hlengths, hrun⟩ := hfork (by omega)
      ⟨buffer.extract 0 (values.size - values.size / 2),
        buffer.extract (values.size - values.size / 2) buffer.size⟩ memory
      (by simp only [Array.size_extract]; omega) (by simp only [Array.size_extract]; omega)
    have hleft := hlengths.left
    have hright := hlengths.right
    simp only [Array.size_extract] at hleft hright
    refine ⟨after.left ++ after.right, ?_, ?_⟩
    · rw [Array.size_append]
      omega
    · have hroom : values.size - values.size / 2 ≤ buffer.size := by omega
      rw [if_neg hshort]
      simp only [require_of _ hroom, bind, Except.bind, hrun, pure, Except.pure]

/-- A slice below the limit is sorted without a fork, with the fronts of the buffers. -/
theorem forkSort_of_run {compare : Comparator σ α} (schedule : Schedule) {values : Array α}
    {scratch : Scratch α} {after : Workspace α} {memory memory' : σ} (hpos : 1 ≤ values.size)
    (hshort : values.size < minForkLen) (hleft : values.size - values.size / 2 ≤ scratch.left.size)
    (hright : values.size / 2 ≤ scratch.right.size)
    (hrun : mergeSortRange compare 0 (values.size - 1)
      ⟨values, ⟨scratch.left.extract 0 (values.size - values.size / 2),
        scratch.right.extract 0 (values.size / 2)⟩⟩ memory = .ok (after, memory')) :
    forkSort compare schedule values scratch memory =
      .ok (⟨after.values, scratch.rejoin after.scratch⟩, memory') := by
  rw [forkSort, require_of _ ⟨hleft, hright⟩, require_of _ (by omega)]
  simp only [bind, Except.bind, if_pos hshort, hrun, pure, Except.pure]

/-- So it ends up as `listSort` sorts it from left to right. -/
theorem forkSort_of_short (compare : Comparator σ α) (schedule : Schedule) {values : Array α}
    (hpos : 1 ≤ values.size) (hshort : values.size < minForkLen) (hfits : values.size < wordLimit) :
    ForkSortsLike compare schedule values := by
  intro scratch memory hleft hright
  have hlen : values.toList.length = values.size := Array.length_toList
  have hleftLen : (scratch.left.extract 0 (values.size - values.size / 2)).size =
      values.size - values.size / 2 := by
    rw [Array.size_extract]
    omega
  have hrightLen : (scratch.right.extract 0 (values.size / 2)).size = values.size / 2 := by
    rw [Array.size_extract]
    omega
  obtain ⟨after, hlengths, hrun⟩ := mergeSortRange_parts compare [] values.toList []
    ⟨scratch.left.extract 0 (values.size - values.size / 2),
      scratch.right.extract 0 (values.size / 2)⟩ memory (show 0 = ([] : List α).length from rfl)
    (Nat.zero_le (values.size - 1)) (by omega) (by omega) (by dsimp only; omega)
    (by dsimp only; omega)
  simp only [List.nil_append, List.append_nil] at hrun
  have hleftAfter := hlengths.left
  have hrightAfter := hlengths.right
  dsimp only at hleftAfter hrightAfter
  refine ⟨scratch.rejoin after, Scratch.rejoin_sameLengths (by omega) (by omega), ?_⟩
  rw [forkSort_of_run schedule hpos hshort hleft hright hrun, Schedule.forked_of_short schedule hshort]

/-- A slice at or above the limit is forked; its halves are sorted by tasks that keep the lengths
    of their buffers, and then merged. -/
theorem forkSort_of_long (compare : Comparator σ α) (schedule : Schedule) {values : Array α}
    (hlong : ¬ values.size < minForkLen) (hfits : values.size < wordLimit)
    (hhalves : ∀ (schedule : Schedule) (half : Array α), 1 ≤ half.size →
      half.size < values.size → ForkSortsLike compare schedule half) :
    ForkSortsLike compare schedule values := by
  intro scratch memory hleft hright
  have hmany : 2 ≤ values.size := by
    have hlimit : minForkLen = 4096 := rfl
    omega
  have hmanyList : ¬ values.toList.length < 2 := by
    rw [Array.length_toList]
    omega
  generalize hcut : values.size - values.size / 2 = leftLen at *
  have hfront : (values.extract 0 leftLen).size = leftLen := by
    rw [Array.size_extract]
    omega
  have hback : (values.extract leftLen values.size).size = values.size / 2 := by
    rw [Array.size_extract]
    omega
  -- Each task owns a buffer that is as long as its half.
  obtain ⟨leftAfter, rightAfter, hleftAfter, hrightAfter, hjoin⟩ :=
    join_eq_inTurn (schedule []) memory
      (fun memory => ownedSort_eq_ok compare (schedule.inside .left) (values.extract 0 leftLen)
        (scratch.left.extract 0 leftLen) memory
        (fun h => hhalves _ _ (by omega) (by omega)) (by rw [hfront, Array.size_extract]; omega))
      (fun memory => ownedSort_eq_ok compare (schedule.inside .right)
        (values.extract leftLen values.size) (scratch.right.extract 0 (values.size / 2)) memory
        (fun h => hhalves _ _ (by omega) (by omega)) (by rw [hback, Array.size_extract]; omega))
  -- The halves are those of the list, and the forks inside them are those of the schedule.
  have hsort := listSort_of_long compare (schedule.forked values.size) memory hmanyList
  rw [Array.length_toList, hcut, ← toList_extract_front, ← toList_extract_back,
    Schedule.forked_nil schedule hlong, Schedule.forked_inside, Schedule.forked_inside] at hsort
  simp only [Side.half, hcut] at hsort
  rw [hfront, hback] at hjoin
  have hlengths := inTurn_listSort_length compare (schedule []) ((schedule.inside .left).forked leftLen)
    ((schedule.inside .right).forked (values.size / 2)) (values.extract 0 leftLen).toList
    (values.extract leftLen values.size).toList memory
  generalize inTurn (schedule []) _ _ memory = halves at hsort hjoin hlengths
  rw [Array.length_toList, Array.length_toList, hfront, hback] at hlengths
  obtain ⟨hfrontLen, hbackLen⟩ := hlengths
  rw [Array.size_extract] at hleftAfter hrightAfter
  obtain ⟨after, hlengths, hmerge⟩ := mergeRuns_parts compare [] halves.1 halves.2.1 []
    ⟨leftAfter, rightAfter⟩ halves.2.2 (show 0 = ([] : List α).length from rfl)
    (Nat.zero_le (leftLen - 1)) (by omega) (show values.size - 1 + 1 = _ by omega) (by omega)
    (by dsimp only; omega) (by dsimp only; omega)
  simp only [List.nil_append, List.append_nil] at hmerge
  have hleftUsed := hlengths.left
  have hrightUsed := hlengths.right
  dsimp only at hleftUsed hrightUsed
  refine ⟨scratch.rejoin after, Scratch.rejoin_sameLengths (by omega) (by omega), ?_⟩
  rw [forkSort, hsort]
  simp only [hcut, require_of _ (show leftLen ≤ scratch.left.size ∧
    values.size / 2 ≤ scratch.right.size from ⟨hleft, hright⟩),
    require_of _ (show 1 ≤ leftLen by omega), if_neg hlong, bind, Except.bind, hjoin,
    List.append_toArray, hmerge, pure, Except.pure]

/-- The fork-join sort of a slice of one item or more does what `listSort` does under the same
    schedule. The induction is on the length of the slice: both halves of a fork are shorter. -/
theorem forkSort_sortsLike (compare : Comparator σ α) (schedule : Schedule) (values : Array α)
    (hpos : 1 ≤ values.size) (hfits : values.size < wordLimit) :
    ForkSortsLike compare schedule values := by
  induction hn : values.size using Nat.strongRecOn generalizing schedule values with
  | ind n ih =>
    subst hn
    by_cases hshort : values.size < minForkLen
    · exact forkSort_of_short compare schedule hpos hshort hfits
    · refine forkSort_of_long compare schedule hshort hfits ?_
      intro schedule half hhalf hless
      exact ih half.size hless schedule half hhalf (by omega) rfl

/-! ## The entries -/

/-- Taking a segment out and putting other items back is a splice. -/
theorem extract_append_eq_splice (values : Array α) (low high : Nat) (items : List α) :
    values.extract 0 low ++ items.toArray ++ values.extract (high + 1) values.size =
      splice values low high items := by
  apply Array.ext'
  rw [Array.toList_append, Array.toList_append, toList_extract_front, toList_extract_back]
  rfl

/-- The fork-join sort of a range has the effect of sorting it under the schedule. -/
theorem ForkJoin.sortRangeBy_hasEffect (compare : Comparator σ α) (schedule : Schedule)
    (low high : Nat) (values : Array α) (scratch : Scratch α) (memory : σ)
    (hfits : values.size < wordLimit) :
    HasEffect scratch (ForkJoin.sortRangeBy compare schedule low high ⟨values, scratch⟩ memory)
      (rangeEffect compare (schedule.forked (high - low + 1)) low high values scratch.left.size
        scratch.right.size memory) := by
  unfold ForkJoin.sortRangeBy rangeEffect
  dsimp only
  rw [Admission.ofRange_eq_ok hfits]
  cases hadmission : Admission.forRange values.size low high scratch.left.size
    scratch.right.size with
  | idle => exact ⟨scratch, .refl scratch, rfl⟩
  | refused error => exact ⟨scratch, .refl scratch, rfl⟩
  | ready =>
    obtain ⟨hlow, hhigh, hleft, hright⟩ := Admission.forRange_eq_ready_iff.mp hadmission
    have hlen : (values.extract low (high + 1)).size = high - low + 1 := by
      rw [Array.size_extract]
      omega
    obtain ⟨after, hlengths, hrun⟩ := forkSort_sortsLike compare schedule
      (values.extract low (high + 1)) (by omega) (by omega) scratch memory (by omega) (by omega)
    rw [hlen] at hrun
    have hword : high + 1 < wordLimit := by omega
    have hinside : low ≤ high + 1 ∧ high + 1 ≤ values.size := by omega
    refine ⟨after, hlengths, ?_⟩
    simp only [bind, Except.bind, require_of _ hword, require_of _ hinside, hrun, pure, Except.pure,
      extract_append_eq_splice]
    rfl

/-- The fork-join sort of a whole sequence. -/
theorem ForkJoin.sortBy_eq_ok (compare : Comparator σ α) (schedule : Schedule) (values : Array α)
    (memory : σ) (hfits : values.size < wordLimit) :
    ForkJoin.sortBy compare schedule values memory =
      .ok ((listSort compare (schedule.forked values.size) values.toList memory).1.toArray,
        (listSort compare (schedule.forked values.size) values.toList memory).2) := by
  unfold ForkJoin.sortBy
  by_cases hshort : values.size < 2
  · rw [if_pos hshort, listSort_of_short compare _ memory hshort]
  · obtain ⟨hleft, hright⟩ := Scratch.forValues_lengths values
    obtain ⟨after, -, hrun⟩ := forkSort_sortsLike compare schedule values (by omega) hfits
      (.forValues values) memory (by omega) (by omega)
    rw [if_neg hshort]
    simp only [bind, Except.bind, hrun, pure, Except.pure]

end MicroBench

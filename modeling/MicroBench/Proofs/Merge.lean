import MicroBench.Sort.Merge
import MicroBench.Proofs.Listwise
import MicroBench.Proofs.Segment

/-! # The merge in place

  The merge of `MicroBench.Sort.Merge` overwrites the very range that it reads from. It can do so
  because both runs are in scratch by then, and because the slots that are still to be written are
  always as many as the items that are still to be taken.

  - `mergeFronts_parts` describes the loop: the written part grows by the items that `listMerge`
    takes, and the loop stops when one run is used up.
  - `mergeRuns_eq_ok` adds the copies before and after the loop: the range ends up as the merge of
    its two runs, nothing else in the values changes, and the buffers hold the runs. In
    `mergeRuns_parts` the buffers are known by their lengths alone.

  No step depends on what the buffers held before, and no step leaves the bounds of its array.
-/

namespace MicroBench

variable {σ α : Type}

/-- Two pairs of buffers of the same lengths. -/
structure Scratch.SameLengths (a b : Scratch α) : Prop where
  left : a.left.size = b.left.size
  right : a.right.size = b.right.size

theorem Scratch.SameLengths.refl (a : Scratch α) : a.SameLengths a := ⟨rfl, rfl⟩

theorem Scratch.SameLengths.symm {a b : Scratch α} (h : a.SameLengths b) : b.SameLengths a :=
  ⟨h.left.symm, h.right.symm⟩

theorem Scratch.SameLengths.trans {a b c : Scratch α} (hab : a.SameLengths b)
    (hbc : b.SameLengths c) : a.SameLengths c :=
  ⟨hab.left.trans hbc.left, hab.right.trans hbc.right⟩

/-- The buffers with two runs at their fronts. What they hold behind the runs stays. -/
def Scratch.load (scratch : Scratch α) (xs ys : List α) : Scratch α :=
  ⟨(xs ++ scratch.left.toList.drop xs.length).toArray,
   (ys ++ scratch.right.toList.drop ys.length).toArray⟩

theorem Scratch.load_sameLengths {scratch : Scratch α} {xs ys : List α}
    (hleft : xs.length ≤ scratch.left.size) (hright : ys.length ≤ scratch.right.size) :
    (scratch.load xs ys).SameLengths scratch := by
  constructor
  · simp only [Scratch.load, List.size_toArray, List.length_append, List.length_drop,
      Array.length_toList]
    omega
  · simp only [Scratch.load, List.size_toArray, List.length_append, List.length_drop,
      Array.length_toList]
    omega

/-! ## The loop -/

section

variable {compare : Comparator σ α} {left right values values' : Array α}
variable {leftLen rightLen i j k : Nat} {memory : σ} {a b : α}

/-- A round of the loop in which the right item is less. -/
theorem mergeFronts_takeRight (hgo : i < leftLen ∧ j < rightLen)
    (hb : fetch right j = .ok b) (ha : fetch left i = .ok a)
    (hless : (compare b a memory).1 = .lt) (hstore : store values k b = .ok values')
    (hj : j + 1 < wordLimit) (hk : k + 1 < wordLimit) :
    mergeFronts compare left right leftLen rightLen i j k values memory =
      mergeFronts compare left right leftLen rightLen i (j + 1) (k + 1) values'
        (compare b a memory).2 := by
  rw [mergeFronts, if_pos hgo, hb, ha]
  obtain ⟨answer, memory', hanswer⟩ : ∃ answer memory', compare b a memory = (answer, memory') :=
    ⟨_, _, rfl⟩
  rw [hanswer] at hless
  simp only [bind, Except.bind, hanswer] at hless ⊢
  subst hless
  simp only [hstore, require_of _ hj, require_of _ hk]

/-- A round of the loop in which the right item is not less. -/
theorem mergeFronts_takeLeft (hgo : i < leftLen ∧ j < rightLen)
    (hb : fetch right j = .ok b) (ha : fetch left i = .ok a)
    (hless : ¬ (compare b a memory).1 = .lt) (hstore : store values k a = .ok values')
    (hi : i + 1 < wordLimit) (hk : k + 1 < wordLimit) :
    mergeFronts compare left right leftLen rightLen i j k values memory =
      mergeFronts compare left right leftLen rightLen (i + 1) j (k + 1) values'
        (compare b a memory).2 := by
  rw [mergeFronts, if_pos hgo, hb, ha]
  obtain ⟨answer, memory', hanswer⟩ : ∃ answer memory', compare b a memory = (answer, memory') :=
    ⟨_, _, rfl⟩
  rw [hanswer] at hless
  simp only [bind, Except.bind, hanswer] at hless ⊢
  -- Ties go left, so the two remaining answers are handled alike.
  cases answer with
  | lt => exact absurd rfl hless
  | eq => simp only [hstore, require_of _ hi, require_of _ hk]
  | gt => simp only [hstore, require_of _ hi, require_of _ hk]

end

/-- The loop takes items off both runs until one of them is used up. What it takes and what it
    leaves make up the merge of the two runs. The slots in `hole` are free to be overwritten; there
    are as many of them as items are left. -/
theorem mergeFronts_parts (compare : Comparator σ α) (xs ys : List α) (memory : σ)
    (leftDone leftRest rightDone rightRest written hole behind : List α) {leftLen rightLen : Nat}
    (hleftLen : leftLen = leftDone.length + xs.length)
    (hrightLen : rightLen = rightDone.length + ys.length)
    (hhole : hole.length = xs.length + ys.length)
    (hleftFits : leftLen < wordLimit) (hrightFits : rightLen < wordLimit)
    (hfits : written.length + hole.length < wordLimit) :
    ∃ takenLeft xs' takenRight ys' zs hole' : List α,
      xs = takenLeft ++ xs' ∧ ys = takenRight ++ ys' ∧
      (listMerge compare xs ys memory).1 = zs ++ xs' ++ ys' ∧
      hole'.length = xs'.length + ys'.length ∧
      mergeFronts compare (leftDone ++ xs ++ leftRest).toArray
          (rightDone ++ ys ++ rightRest).toArray leftLen rightLen leftDone.length
          rightDone.length written.length (written ++ hole ++ behind).toArray memory =
        .ok ⟨leftDone.length + takenLeft.length, rightDone.length + takenRight.length,
          written.length + zs.length, (written ++ zs ++ hole' ++ behind).toArray,
          (listMerge compare xs ys memory).2⟩ := by
  fun_induction listMerge compare xs ys memory generalizing leftDone rightDone written hole with
  | case1 ys memory =>
    -- The left run is used up, so the loop stops before it looks at an item.
    refine ⟨[], [], [], ys, [], hole, rfl, rfl, rfl, hhole, ?_⟩
    have hend : ¬ (leftDone.length < leftLen ∧ rightDone.length < rightLen) := by
      simp only [List.length_nil] at hleftLen
      omega
    rw [mergeFronts, if_neg hend]
    simp
  | case2 x xs memory =>
    refine ⟨[], x :: xs, [], [], [], hole, rfl, rfl, by simp, hhole, ?_⟩
    have hend : ¬ (leftDone.length < leftLen ∧ rightDone.length < rightLen) := by
      simp only [List.length_nil] at hrightLen
      omega
    rw [mergeFronts, if_neg hend]
    simp
  | case3 x xs y ys memory hless rest ih =>
    obtain ⟨slot, slots, rfl⟩ : ∃ slot slots, hole = slot :: slots :=
      List.exists_cons_of_length_pos (by simp only [hhole, List.length_cons]; omega)
    simp only [List.length_cons] at hleftLen hrightLen hhole hfits
    -- The right item is written, so it belongs to the done part of its run from now on.
    obtain ⟨takenLeft, xs', takenRight, ys', zs, hole', hxs, hys, hmerge, hhole', hrun⟩ :=
      ih leftDone (rightDone ++ [y]) (written ++ [y]) slots
        (by simp only [List.length_cons]; omega)
        (by simp only [List.length_append, List.length_singleton]; omega)
        (by simp only [List.length_cons]; omega)
        (by simp only [List.length_append, List.length_singleton]; omega)
    refine ⟨takenLeft, xs', y :: takenRight, ys', y :: zs, hole', hxs,
      by rw [hys, List.cons_append], by rw [hmerge]; simp only [List.cons_append], hhole', ?_⟩
    have hright := fetch_middle rightDone ys rightRest y
    have hleft := fetch_middle leftDone xs leftRest x
    have hstore := store_middle written slots behind slot y
    rw [mergeFronts_takeRight (by omega) hright hleft hless hstore (by omega) (by omega)]
    simp only [List.length_append, List.append_assoc, List.cons_append, List.nil_append,
      List.length_cons, List.length_nil, Nat.zero_add, Nat.add_assoc, Nat.add_comm 1] at hrun ⊢
    exact hrun
  | case4 x xs y ys memory hless rest ih =>
    obtain ⟨slot, slots, rfl⟩ : ∃ slot slots, hole = slot :: slots :=
      List.exists_cons_of_length_pos (by simp only [hhole, List.length_cons]; omega)
    simp only [List.length_cons] at hleftLen hrightLen hhole hfits
    -- The left item is written, so the left run is one shorter and the right one waits.
    obtain ⟨takenLeft, xs', takenRight, ys', zs, hole', hxs, hys, hmerge, hhole', hrun⟩ :=
      ih (leftDone ++ [x]) rightDone (written ++ [x]) slots
        (by simp only [List.length_append, List.length_singleton]; omega)
        (by simp only [List.length_cons]; omega)
        (by simp only [List.length_cons]; omega)
        (by simp only [List.length_append, List.length_singleton]; omega)
    refine ⟨x :: takenLeft, xs', takenRight, ys', x :: zs, hole', by rw [hxs, List.cons_append],
      hys, by rw [hmerge]; simp only [List.cons_append], hhole', ?_⟩
    have hright := fetch_middle rightDone ys rightRest y
    have hleft := fetch_middle leftDone xs leftRest x
    have hstore := store_middle written slots behind slot x
    rw [mergeFronts_takeLeft (by omega) hright hleft hless hstore (by omega) (by omega)]
    simp only [List.length_append, List.append_assoc, List.cons_append, List.nil_append,
      List.length_cons, List.length_nil, Nat.zero_add, Nat.add_assoc, Nat.add_comm 1] at hrun ⊢
    exact hrun

/-! ## The whole merge -/

/-- The rests of both runs follow the written part, the left one first. -/
theorem drain_parts (written xs ys hole behind leftDone leftRest rightDone rightRest : List α)
    (hhole : hole.length = xs.length + ys.length) :
    ∃ drained : Array α,
      copySegment (leftDone ++ xs ++ leftRest).toArray leftDone.length (leftDone ++ xs).length
          (written ++ hole ++ behind).toArray written.length (written.length + xs.length) =
        .ok drained ∧
      copySegment (rightDone ++ ys ++ rightRest).toArray rightDone.length (rightDone ++ ys).length
          drained (written.length + xs.length) (written.length + xs.length + ys.length) =
        .ok (written ++ (xs ++ ys) ++ behind).toArray := by
  have hleftHole : (hole.take xs.length).length = xs.length := by
    rw [List.length_take]
    omega
  have hrightHole : (hole.drop xs.length).length = ys.length := by
    rw [List.length_drop]
    omega
  have hhalves : written ++ hole.take xs.length ++ (hole.drop xs.length ++ behind) =
      written ++ hole ++ behind := by
    rw [← List.append_assoc, List.append_assoc written, List.take_append_drop]
  have hleft := copySegment_parts leftDone xs leftRest written _ (hole.drop xs.length ++ behind)
    hleftHole rfl List.length_append rfl rfl
  have hright := copySegment_parts rightDone ys rightRest (written ++ xs) _ behind
    hrightHole rfl List.length_append List.length_append.symm rfl
  rw [hhalves] at hleft
  rw [List.append_assoc (written ++ xs)] at hright
  exact ⟨_, hleft, by rw [← List.append_assoc written]; exact hright⟩

/-- Two neighbouring runs end up merged, and what stands before and behind them stays. The merge
    never leaves its arrays, so it does not fault. -/
theorem mergeRuns_eq_ok (compare : Comparator σ α) (before xs ys behind : List α)
    (scratch : Scratch α) (memory : σ) {low mid high : Nat} (hlow : low = before.length)
    (hlowMid : low ≤ mid) (hmid : mid + 1 = low + xs.length)
    (hhigh : high + 1 = mid + 1 + ys.length) (hfits : high + 1 < wordLimit)
    (hleft : xs.length ≤ scratch.left.size) (hright : ys.length ≤ scratch.right.size) :
    mergeRuns compare low mid high ⟨(before ++ xs ++ ys ++ behind).toArray, scratch⟩ memory =
      .ok (⟨(before ++ (listMerge compare xs ys memory).1 ++ behind).toArray, scratch.load xs ys⟩,
        (listMerge compare xs ys memory).2) := by
  obtain ⟨left, right⟩ := scratch
  dsimp only at hleft hright
  subst hlow
  have hleftLen : mid - before.length + 1 = xs.length := by omega
  have hrightLen : high - mid = ys.length := by omega
  have hrange : before.length ≤ mid ∧ mid ≤ high := by omega
  have hwords : mid - before.length + 1 < wordLimit ∧ mid + 1 < wordLimit ∧
      high + 1 < wordLimit := by omega
  -- Both runs move to the fronts of the buffers.
  have hloadLeft := copySegment_toFront before xs (ys ++ behind) left hleft rfl hmid
  have hloadRight := copySegment_toFront (before ++ xs) ys behind right hright
    (by rw [List.length_append, hmid]) hhigh
  rw [← List.append_assoc] at hloadLeft
  -- The loop may overwrite the range, which is as long as both runs together.
  obtain ⟨takenLeft, xs', takenRight, ys', zs, hole, hxs, hys, hmerge, hhole, hloop⟩ :=
    mergeFronts_parts compare xs ys memory [] (left.toList.drop xs.length) []
      (right.toList.drop ys.length) before (xs ++ ys) behind (Nat.zero_add _).symm
      (Nat.zero_add _).symm List.length_append (by omega) (by omega)
      (by rw [List.length_append]; omega)
  simp only [List.nil_append, List.length_nil, Nat.zero_add, ← List.append_assoc] at hloop
  -- The rests of the runs fill the slots that the loop left.
  obtain ⟨drained, hdrainLeft, hdrainRight⟩ := drain_parts (before ++ zs) xs' ys' hole behind
    takenLeft (left.toList.drop xs.length) takenRight (right.toList.drop ys.length) hhole
  rw [← hxs, List.length_append] at hdrainLeft
  rw [← hys, List.length_append] at hdrainRight
  have hmergeLen := listMerge_length compare xs ys memory
  have hleftTaken : takenLeft.length + xs'.length = xs.length := by rw [hxs, List.length_append]
  have hrightTaken : takenRight.length + ys'.length = ys.length := by rw [hys, List.length_append]
  rw [hmerge, List.length_append, List.length_append] at hmergeLen
  have hleftRest : xs.length - takenLeft.length = xs'.length := by omega
  have hrightRest : ys.length - takenRight.length = ys'.length := by omega
  have htaken : takenLeft.length ≤ xs.length ∧ takenRight.length ≤ ys.length := by omega
  have hleftEnd : before.length + zs.length + xs'.length < wordLimit := by omega
  have hrightEnd : before.length + zs.length + xs'.length + ys'.length < wordLimit := by omega
  unfold mergeRuns Scratch.load
  rw [require_of _ hrange, require_of _ hwords]
  simp only [hleftLen, hrightLen, bind, Except.bind, hloadLeft, hloadRight, hloop,
    require_of _ htaken, hleftRest, hrightRest, require_of _ hleftEnd, require_of _ hrightEnd,
    hdrainLeft, hdrainRight, hmerge, pure, Except.pure]
  simp only [List.append_assoc]

/-- The same for a caller who does not look into the buffers. -/
theorem mergeRuns_parts (compare : Comparator σ α) (before xs ys behind : List α)
    (scratch : Scratch α) (memory : σ) {low mid high : Nat} (hlow : low = before.length)
    (hlowMid : low ≤ mid) (hmid : mid + 1 = low + xs.length)
    (hhigh : high + 1 = mid + 1 + ys.length) (hfits : high + 1 < wordLimit)
    (hleft : xs.length ≤ scratch.left.size) (hright : ys.length ≤ scratch.right.size) :
    ∃ after : Scratch α, after.SameLengths scratch ∧
      mergeRuns compare low mid high ⟨(before ++ xs ++ ys ++ behind).toArray, scratch⟩ memory =
        .ok (⟨(before ++ (listMerge compare xs ys memory).1 ++ behind).toArray, after⟩,
          (listMerge compare xs ys memory).2) :=
  ⟨scratch.load xs ys, Scratch.load_sameLengths hleft hright,
    mergeRuns_eq_ok compare before xs ys behind scratch memory hlow hlowMid hmid hhigh hfits hleft
      hright⟩

end MicroBench

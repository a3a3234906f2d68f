import MicroBench.Proofs.Effect

/-! # The sequential sort in place

  Every level of the sequential sort works on its own range of the values and with the same two
  buffers. The buffers are long enough for every level because they are long enough for the
  first, and no level relies on what another one left in them.

  - `mergeSortRange_parts` is the run of the recursion: the range ends up as `listSort` sorts it
    from left to right.
  - `Sequential.sortRangeBy_hasEffect` and `Sequential.sortBy_eq_ok` lift this to the two entries.
-/

namespace MicroBench

variable {σ α : Type}

/-- The sort of a list from left to right: first the front half, then the back half. -/
theorem listSort_leftFirst (compare : Comparator σ α) {xs : List α} (memory : σ)
    (hlong : ¬ xs.length < 2) :
    let front := listSort compare .leftFirst (xs.take (xs.length - xs.length / 2)) memory
    let back := listSort compare .leftFirst (xs.drop (xs.length - xs.length / 2)) front.2
    listSort compare .leftFirst xs memory = listMerge compare front.1 back.1 back.2 :=
  listSort_of_long compare .leftFirst memory hlong

/-- One level of the recursion: the left half is sorted, then the right half, and then both are
    merged. -/
theorem mergeSortRange_step {compare : Comparator σ α} {low mid high : Nat}
    {workspace front back : Workspace α} {memory frontMemory backMemory : σ} (hlow : low < high)
    (hmid : low + (high - low) / 2 = mid) (hfits : high < wordLimit)
    (hfront : mergeSortRange compare low mid workspace memory = .ok (front, frontMemory))
    (hback : mergeSortRange compare (mid + 1) high front frontMemory = .ok (back, backMemory)) :
    mergeSortRange compare low high workspace memory =
      mergeRuns compare low mid high back backMemory := by
  rw [mergeSortRange, if_pos hlow, hmid, require_of _ (by omega)]
  simp only [bind, Except.bind, hfront, hback]

/-- A range of at most one item is left alone. -/
theorem mergeSortRange_of_idle (compare : Comparator σ α) {low high : Nat}
    (workspace : Workspace α) (memory : σ) (hidle : high ≤ low) :
    mergeSortRange compare low high workspace memory = .ok (workspace, memory) := by
  rw [mergeSortRange, if_neg (by omega)]

/-- A range whose halves fit into the buffers ends up sorted, and what stands before and behind it
    stays. -/
theorem mergeSortRange_parts (compare : Comparator σ α) (before xs behind : List α)
    (scratch : Scratch α) (memory : σ) {low high : Nat} (hlow : low = before.length)
    (hlowHigh : low ≤ high) (hhigh : high + 1 = low + xs.length) (hfits : high + 1 < wordLimit)
    (hleft : xs.length - xs.length / 2 ≤ scratch.left.size)
    (hright : xs.length / 2 ≤ scratch.right.size) :
    ∃ after : Scratch α, after.SameLengths scratch ∧
      mergeSortRange compare low high ⟨(before ++ xs ++ behind).toArray, scratch⟩ memory =
        .ok (⟨(before ++ (listSort compare .leftFirst xs memory).1 ++ behind).toArray, after⟩,
          (listSort compare .leftFirst xs memory).2) := by
  induction xs using halving_induction generalizing before behind scratch memory low high with
  | short xs hshort =>
    refine ⟨scratch, .refl scratch, ?_⟩
    rw [mergeSortRange_of_idle compare _ memory (by omega),
      listSort_of_short compare .leftFirst memory hshort]
  | long xs hlong ihl ihr =>
    have hgo : low < high := by omega
    have hfrontLen := length_frontHalf xs
    have hbackLen := length_backHalf xs
    have hcut : before ++ xs ++ behind = before ++ xs.take (xs.length - xs.length / 2) ++
        (xs.drop (xs.length - xs.length / 2) ++ behind) := by
      rw [List.append_assoc, List.append_assoc, ← List.append_assoc (xs.take _),
        List.take_append_drop]
    rw [listSort_leftFirst compare memory hlong, hcut]
    generalize hfront : xs.take (xs.length - xs.length / 2) = front at *
    generalize hback : xs.drop (xs.length - xs.length / 2) = back at *
    have hmid : low + (high - low) / 2 + 1 = low + front.length := by omega
    -- The left half is sorted while the right half stands behind it.
    obtain ⟨after₁, hlengths₁, hrun₁⟩ := ihl before (back ++ behind) scratch memory hlow
      (by omega) hmid (by omega) (by omega) (by omega)
    generalize hsorted₁ : listSort compare .leftFirst front memory = sorted₁ at *
    have hsortedLen₁ : sorted₁.1.length = front.length := by
      rw [← hsorted₁, listSort_length]
    have hleft₁ := hlengths₁.left
    have hright₁ := hlengths₁.right
    -- The right half is sorted while the sorted left half stands before it.
    have hlow₂ : low + (high - low) / 2 + 1 = (before ++ sorted₁.1).length := by
      rw [List.length_append]
      omega
    obtain ⟨after₂, hlengths₂, hrun₂⟩ := ihr (before ++ sorted₁.1) behind after₁ sorted₁.2 hlow₂
      (by omega) (show high + 1 = _ by omega) (by omega) (by omega) (by omega)
    generalize hsorted₂ : listSort compare .leftFirst back sorted₁.2 = sorted₂ at *
    have hsortedLen₂ : sorted₂.1.length = back.length := by
      rw [← hsorted₂, listSort_length]
    have hleft₂ := hlengths₂.left
    have hright₂ := hlengths₂.right
    -- Both halves are sorted and stand side by side.
    obtain ⟨after₃, hlengths₃, hrun₃⟩ := mergeRuns_parts compare before sorted₁.1 sorted₂.1 behind
      after₂ sorted₂.2 hlow (Nat.le_add_right low ((high - low) / 2)) (by omega)
      (show high + 1 = _ by omega) hfits (by omega) (by omega)
    refine ⟨after₃, hlengths₃.trans (hlengths₂.trans hlengths₁), ?_⟩
    rw [← List.append_assoc (before ++ sorted₁.1)] at hrun₁
    rw [mergeSortRange_step hgo rfl (by omega) hrun₁ hrun₂, hrun₃]

/-! ## The entries -/

/-- The sequential sort of a range has the effect of sorting it from left to right. -/
theorem Sequential.sortRangeBy_hasEffect (compare : Comparator σ α) (low high : Nat)
    (values : Array α) (scratch : Scratch α) (memory : σ) (hfits : values.size < wordLimit) :
    HasEffect scratch (Sequential.sortRangeBy compare low high ⟨values, scratch⟩ memory)
      (rangeEffect compare .leftFirst low high values scratch.left.size scratch.right.size
        memory) := by
  unfold Sequential.sortRangeBy rangeEffect
  rw [Admission.ofRange_eq_ok hfits]
  cases hadmission : Admission.forRange values.size low high scratch.left.size
    scratch.right.size with
  | idle => exact ⟨scratch, .refl scratch, rfl⟩
  | refused error => exact ⟨scratch, .refl scratch, rfl⟩
  | ready =>
    obtain ⟨hlow, hhigh, hleft, hright⟩ := Admission.forRange_eq_ready_iff.mp hadmission
    have hlen := segment_length values low hhigh
    have hbefore : low = (values.toList.take low).length :=
      (length_take_toList values (by omega)).symm
    obtain ⟨after, hlengths, hrun⟩ := mergeSortRange_parts compare (values.toList.take low)
      (segment values low high) (values.toList.drop (high + 1)) scratch memory hbefore
      (Nat.le_of_lt hlow) (by omega) (by omega) (by omega) (by omega)
    have hparts := splice_segment values (show low ≤ high + 1 by omega)
    unfold splice at hparts
    rw [hparts] at hrun
    refine ⟨after, hlengths, ?_⟩
    simp only [bind, Except.bind, hrun]
    rfl

/-- The buffers that a sequence is given fit it. -/
theorem Scratch.forValues_lengths (values : Array α) :
    (Scratch.forValues values).left.size = values.size - values.size / 2 ∧
      (Scratch.forValues values).right.size = values.size / 2 := by
  unfold Scratch.forValues
  cases hfirst : values[0]? with
  | none =>
    have hempty : values.size = 0 := by simpa using hfirst
    simp [hempty]
  | some first => simp

/-- The sequential sort of a whole sequence. -/
theorem Sequential.sortBy_eq_ok (compare : Comparator σ α) (values : Array α) (memory : σ)
    (hfits : values.size < wordLimit) :
    Sequential.sortBy compare values memory =
      .ok ((listSort compare .leftFirst values.toList memory).1.toArray,
        (listSort compare .leftFirst values.toList memory).2) := by
  unfold Sequential.sortBy
  by_cases hshort : values.size < 2
  · rw [if_pos hshort, listSort_of_short compare .leftFirst memory hshort]
  · obtain ⟨hleft, hright⟩ := Scratch.forValues_lengths values
    have hlen : values.toList.length = values.size := Array.length_toList
    obtain ⟨after, -, hrun⟩ := mergeSortRange_parts compare [] values.toList [] (.forValues values)
      memory (show 0 = ([] : List α).length from rfl) (Nat.zero_le (values.size - 1)) (by omega)
      (by omega) (by omega) (by omega)
    simp only [List.nil_append, List.append_nil] at hrun
    rw [if_neg hshort]
    simp only [bind, Except.bind, hrun, pure, Except.pure]

end MicroBench

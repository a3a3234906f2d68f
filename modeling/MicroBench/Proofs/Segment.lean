import MicroBench.Sort.Workspace

/-! # Arrays in parts

  The sort reads and writes an array at places that it counts for itself. To reason about a place
  one looks at the array as a list in parts: what stands in front of the place, what stands there
  and what follows. Each operation of `MicroBench.Sort.Workspace` gets one fact of this form.

  - `fetch_front` and `store_front` are about the slot behind a front.
  - `copySegment_parts` is about a copy from the middle of one array to the middle of another, and
    `copySegment_toFront` about a copy to the front of a buffer.
  - `segment` takes the middle part of an array and `splice` replaces it; what stands before and
    behind stays.
  - `AgreesOutside` says that two arrays differ in one segment at most.
-/

namespace MicroBench

variable {α : Type}

/-- The slot behind a front holds the item that follows the front. -/
theorem fetch_front (front rest : List α) (item : α) :
    fetch (front ++ item :: rest).toArray front.length = .ok item := by
  have hslot : front.length < (front ++ item :: rest).toArray.size := by simp
  unfold fetch
  rw [dif_pos hslot]
  simp

/-- Writing the slot behind a front replaces the item that follows the front. -/
theorem store_front (front rest : List α) (old item : α) :
    store (front ++ old :: rest).toArray front.length item =
      .ok (front ++ item :: rest).toArray := by
  have hslot : front.length < (front ++ old :: rest).toArray.size := by simp
  unfold store
  rw [dif_pos hslot]
  simp

/-- Reading the first item of a middle part. -/
theorem fetch_middle (front part behind : List α) (item : α) :
    fetch (front ++ item :: part ++ behind).toArray front.length = .ok item := by
  rw [List.append_assoc, List.cons_append]
  exact fetch_front front (part ++ behind) item

/-- Writing the first slot of a middle part moves the slot to the front. -/
theorem store_middle (front part behind : List α) (old item : α) :
    store (front ++ old :: part ++ behind).toArray front.length item =
      .ok (front ++ [item] ++ part ++ behind).toArray := by
  rw [List.append_assoc, List.cons_append, store_front front (part ++ behind) old item]
  simp only [List.append_assoc, List.cons_append, List.nil_append]

/-! ## Copies -/

/-- Copying a whole middle part onto a middle part of the same length replaces the latter. -/
theorem copyItems_parts (segment : List α) (done rest front old behind : List α)
    (hlen : old.length = segment.length) :
    copyItems (done ++ segment ++ rest).toArray segment.length done.length
        (front ++ old ++ behind).toArray front.length =
      (front ++ segment ++ behind).toArray := by
  induction segment generalizing done front old with
  | nil =>
    have hold : old = [] := List.eq_nil_of_length_eq_zero hlen
    subst hold
    rfl
  | cons item items ih =>
    obtain ⟨first, others, rfl⟩ := List.exists_cons_of_length_eq_add_one hlen
    have hothers : others.length = items.length := by simpa using hlen
    have hstart : done.length < (done ++ (item :: items) ++ rest).toArray.size := by simp
    -- One item moves from the segment to the copied part, on both sides.
    have hread : (done ++ (item :: items) ++ rest).toArray[done.length] = item := by simp
    have hwrite : (front ++ (first :: others) ++ behind).toArray.setIfInBounds front.length item =
        ((front ++ [item]) ++ others ++ behind).toArray := by simp
    have hstep := ih (done ++ [item]) (front ++ [item]) others hothers
    simp only [List.length_append, List.length_singleton, List.append_assoc,
      List.singleton_append] at hstep
    simp only [List.length_cons]
    rw [copyItems, dif_pos hstart, hread, hwrite]
    simpa only [List.append_assoc, List.cons_append, List.nil_append] using hstep

/-- A copy between two middle parts of the same length goes through and replaces the target's. -/
theorem copySegment_parts (done segment rest front old behind : List α)
    {start stop slot slotStop : Nat}
    (hlen : old.length = segment.length) (hstart : start = done.length)
    (hstop : stop = start + segment.length) (hslot : slot = front.length)
    (hslotStop : slotStop = slot + segment.length) :
    copySegment (done ++ segment ++ rest).toArray start stop (front ++ old ++ behind).toArray
        slot slotStop =
      .ok (front ++ segment ++ behind).toArray := by
  have hsource : start ≤ stop ∧ stop ≤ (done ++ segment ++ rest).toArray.size := by
    simp only [List.size_toArray, List.length_append]
    omega
  have htarget : slot ≤ slotStop ∧ slotStop ≤ (front ++ old ++ behind).toArray.size := by
    simp only [List.size_toArray, List.length_append]
    omega
  have hequal : stop - start = slotStop - slot := by omega
  have hcount : stop - start = segment.length := by omega
  unfold copySegment
  rw [require_of _ hsource, require_of _ htarget, require_of _ hequal, hcount, hstart, hslot,
    copyItems_parts segment done rest front old behind hlen]
  rfl

/-- A segment that fits into a buffer goes to its front; the rest of the buffer stays. -/
theorem copySegment_toFront (done segment rest : List α) (buffer : Array α) {start stop : Nat}
    (hroom : segment.length ≤ buffer.size) (hstart : start = done.length)
    (hstop : stop = start + segment.length) :
    copySegment (done ++ segment ++ rest).toArray start stop buffer 0 segment.length =
      .ok (segment ++ buffer.toList.drop segment.length).toArray := by
  have hold : (buffer.toList.take segment.length).length = segment.length :=
    List.length_take_of_le (by simpa using hroom)
  have hbuffer : ([] ++ buffer.toList.take segment.length ++
      buffer.toList.drop segment.length).toArray = buffer := by
    rw [List.nil_append, List.take_append_drop]
  have hcopy := copySegment_parts done segment rest [] _ (buffer.toList.drop segment.length) hold
    hstart hstop rfl (Nat.zero_add _).symm
  rw [hbuffer] at hcopy
  exact hcopy

/-! ## Segments -/

theorem length_take_toList (values : Array α) {low : Nat} (hlow : low ≤ values.size) :
    (values.toList.take low).length = low :=
  List.length_take_of_le (by rw [Array.length_toList]; exact hlow)

theorem toList_extract_front (values : Array α) (stop : Nat) :
    (values.extract 0 stop).toList = values.toList.take stop := by
  rw [Array.toList_extract, List.extract_eq_take_drop, List.drop_zero, Nat.sub_zero]

theorem toList_extract_back (values : Array α) (start : Nat) :
    (values.extract start values.size).toList = values.toList.drop start := by
  have hlen : (values.toList.drop start).length = values.size - start := by
    rw [List.length_drop, Array.length_toList]
  rw [Array.toList_extract, List.extract_eq_take_drop]
  exact List.take_of_length_le (Nat.le_of_eq hlen)

/-- The items in the slots `low`, …, `high`. -/
def segment (values : Array α) (low high : Nat) : List α := (values.extract low (high + 1)).toList

/-- The array with other items in the slots `low`, …, `high`. -/
def splice (values : Array α) (low high : Nat) (items : List α) : Array α :=
  (values.toList.take low ++ items ++ values.toList.drop (high + 1)).toArray

theorem segment_length (values : Array α) (low : Nat) {high : Nat} (hhigh : high < values.size) :
    (segment values low high).length = high + 1 - low := by
  simp only [segment, Array.length_toList, Array.size_extract]
  omega

/-- A segment that ends where it starts, or before, holds at most one item. -/
theorem segment_length_of_idle (values : Array α) {low high : Nat} (hidle : high ≤ low) :
    (segment values low high).length < 2 := by
  simp only [segment, Array.length_toList, Array.size_extract]
  omega

/-- Two neighbouring segments make up one. -/
theorem segment_append (values : Array α) {low mid high : Nat} (hlow : low ≤ mid + 1)
    (hhigh : mid ≤ high) :
    segment values low mid ++ segment values (mid + 1) high = segment values low high := by
  unfold segment
  rw [← Array.toList_append, Array.extract_append_extract, Nat.min_eq_left hlow,
    Nat.max_eq_right (by omega)]

/-- An array is put together from what stands before a segment, the segment, and the rest. -/
theorem splice_segment (values : Array α) {low high : Nat} (hlow : low ≤ high + 1) :
    splice values low high (segment values low high) = values := by
  have hrest : values.toList.drop (high + 1) =
      (values.toList.drop low).drop (high + 1 - low) := by
    rw [List.drop_drop]
    congr 1
    omega
  unfold splice segment
  rw [Array.toList_extract, List.extract_eq_take_drop, hrest, List.append_assoc,
    List.take_append_drop, List.take_append_drop, Array.toArray_toList]

/-- The same for two neighbouring segments. -/
theorem splice_segments (values : Array α) {low mid high : Nat} (hlow : low ≤ mid) (hmid : mid ≤ high) :
    (values.toList.take low ++ segment values low mid ++ segment values (mid + 1) high ++
      values.toList.drop (high + 1)).toArray = values := by
  rw [List.append_assoc (values.toList.take low), segment_append values (by omega) hmid]
  exact splice_segment values (by omega)

/-- The segment from the first slot to the last one is the whole array. -/
theorem segment_all (values : Array α) {high : Nat} (hhigh : high + 1 = values.size) :
    segment values 0 high = values.toList := by
  unfold segment
  rw [toList_extract_front, hhigh]
  exact List.take_length

/-- An array is a segment of itself, also if it is empty. -/
theorem toList_eq_segment (values : Array α) :
    values.toList = segment values 0 (values.size - 1) := by
  by_cases hempty : values.size = 0
  · rw [Array.eq_empty_of_size_eq_zero hempty]
    rfl
  · exact (segment_all values (by omega)).symm

/-- Replacing this segment replaces the whole array. -/
theorem splice_all (values : Array α) {high : Nat} (hhigh : high + 1 = values.size)
    (items : List α) : splice values 0 high items = items.toArray := by
  have hnone : values.toList.drop (high + 1) = [] := by
    rw [hhigh]
    exact List.drop_length
  unfold splice
  rw [hnone, List.take_zero, List.nil_append, List.append_nil]

section

variable (values : Array α) {low high : Nat} {items : List α}

theorem splice_size (hlow : low ≤ high + 1) (hhigh : high < values.size)
    (hitems : items.length = high + 1 - low) :
    (splice values low high items).size = values.size := by
  simp only [splice, List.size_toArray, List.length_append, List.length_take, List.length_drop,
    Array.length_toList]
  omega

/-- The new items are found where they were put. -/
theorem segment_splice (hlow : low ≤ high + 1) (hhigh : high < values.size)
    (hitems : items.length = high + 1 - low) :
    segment (splice values low high items) low high = items := by
  have hfront := length_take_toList values (show low ≤ values.size by omega)
  unfold segment splice
  rw [List.extract_toArray, List.extract_eq_take_drop, List.append_assoc,
    List.drop_left' hfront, List.take_left' hitems]

/-- What stands before the segment stays. -/
theorem splice_before (hlow : low ≤ high + 1) (hhigh : high < values.size) :
    (splice values low high items).extract 0 low = values.extract 0 low := by
  have hfront := length_take_toList values (show low ≤ values.size by omega)
  apply Array.ext'
  rw [toList_extract_front, toList_extract_front]
  unfold splice
  rw [List.append_assoc, List.take_left' hfront]

/-- The new items end where the old ones did. -/
theorem splice_front_length (hlow : low ≤ high + 1) (hhigh : high < values.size)
    (hitems : items.length = high + 1 - low) :
    (values.toList.take low ++ items).length = high + 1 := by
  rw [List.length_append, length_take_toList values (by omega), hitems]
  omega

/-- What stands behind the segment stays. -/
theorem splice_behind (hlow : low ≤ high + 1) (hhigh : high < values.size)
    (hitems : items.length = high + 1 - low) :
    (splice values low high items).extract (high + 1) = values.extract (high + 1) := by
  have hfront := splice_front_length values hlow hhigh hitems
  apply Array.ext'
  rw [toList_extract_back, toList_extract_back]
  unfold splice
  rw [List.drop_left' hfront]

end

/-! ## Arrays that differ in one segment -/

/-- An item of a segment is found by its distance from the start of the segment. -/
theorem getElem?_segment (values : Array α) (low high i : Nat) :
    (segment values low high)[i]? = if low + i ≤ high then values[low + i]? else none := by
  unfold segment
  rw [Array.toList_extract, List.extract_eq_take_drop]
  by_cases hi : low + i ≤ high
  · rw [if_pos hi, List.getElem?_take_of_lt (by omega), List.getElem?_drop, Array.getElem?_toList]
  · rw [if_neg hi, List.getElem?_take_eq_none (by omega)]

/-- The two arrays are equally long and hold the same items outside the slots `low`, …, `high`. -/
structure AgreesOutside (low high : Nat) (old new : Array α) : Prop where
  size : new.size = old.size
  outside : ∀ i, i < low ∨ high < i → new[i]? = old[i]?

section

variable {low high low' high' : Nat} {old new values : Array α}

theorem AgreesOutside.refl (low high : Nat) (values : Array α) :
    AgreesOutside low high values values := ⟨rfl, fun _ _ => rfl⟩

/-- A change inside a segment is a change inside every segment around it. -/
theorem AgreesOutside.widen (hagrees : AgreesOutside low high old new) (hlow : low' ≤ low)
    (hhigh : high ≤ high') : AgreesOutside low' high' old new := by
  refine ⟨hagrees.size, ?_⟩
  intro i hi
  exact hagrees.outside i (by omega)

theorem AgreesOutside.trans (hfirst : AgreesOutside low high old values)
    (hsecond : AgreesOutside low high values new) : AgreesOutside low high old new := by
  refine ⟨hsecond.size.trans hfirst.size, ?_⟩
  intro i hi
  rw [hsecond.outside i hi, hfirst.outside i hi]

/-- A segment that does not meet the changed one stays as it is. -/
theorem AgreesOutside.segment_eq (hagrees : AgreesOutside low' high' old new)
    (hapart : high < low' ∨ high' < low) : segment new low high = segment old low high := by
  apply List.ext_getElem?
  intro i
  rw [getElem?_segment, getElem?_segment]
  by_cases hi : low + i ≤ high
  · rw [if_pos hi, if_pos hi, hagrees.outside (low + i) (by omega)]
  · rw [if_neg hi, if_neg hi]

/-- What stands in the segment and what stands outside of it make up the array. -/
theorem AgreesOutside.eq_of_segment (hnew : AgreesOutside low high old new)
    (hvalues : AgreesOutside low high old values)
    (hsegment : segment new low high = segment values low high) : new = values := by
  apply Array.ext_getElem?
  intro i
  by_cases hi : low ≤ i ∧ i ≤ high
  · have hslot := congrArg (fun items => items[i - low]?) hsegment
    simp only [getElem?_segment] at hslot
    rw [if_pos (by omega), if_pos (by omega), Nat.add_sub_cancel' hi.1] at hslot
    exact hslot
  · rw [hnew.outside i (by omega), hvalues.outside i (by omega)]

end

end MicroBench

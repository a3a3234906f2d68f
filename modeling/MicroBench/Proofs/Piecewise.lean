import MicroBench.Proofs.Contract
import MicroBench.Proofs.StableSort

/-! # Sorting in pieces

  A range can be cut anywhere, its two pieces sorted one after the other, and the sorted pieces merged.
  The merges that are made on the way are not those of a sort of the whole range, unless the cut is in
  the middle. The result is the same all the same, ties included: it is the stable sort of the range,
  and there is only one.

  - `Engine.sortRangeBy_stable` and `mergeBy_stable` say of single calls that they leave the stable
    sort of what they were given; `Engine.sort_both_stable` is about two sorts side by side.
  - `pieces_agree_with_whole` compares the two ways.
-/

namespace MicroBench

variable {σ α : Type}

/-- Arrays that differ inside one segment at most, and hold the stable sort of the same items there,
    are the same. -/
theorem AgreesOutside.eq_of_stable {less : α → α → Prop} {low high : Nat} {items : List α}
    {old a b : Array α} (ha : AgreesOutside low high old a) (hb : AgreesOutside low high old b)
    (hsortedA : IsStableSort less items (segment a low high))
    (hsortedB : IsStableSort less items (segment b low high)) : a = b :=
  ha.eq_of_segment hb (hsortedA.unique hsortedB)

section

variable {order : α → α → Ordering} [IsStrictWeakOrder α (Precedes order)]
variable {compare : Comparator σ α} (hfollows : compare.Follows order)

include hfollows

/-- A sort of a range leaves the stable sort of its items there. -/
theorem Engine.sortRangeBy_stable (engine : Engine) (schedule : Schedule) {low high : Nat}
    {workspace : Workspace α} (memory : σ) (hfits : workspace.values.size < wordLimit)
    (hargs : RangeFits workspace low high) :
    ∃ sorted, engine.sortRangeBy compare schedule low high workspace memory = .ok sorted ∧
      sorted.verdict = .ok () ∧
      sorted.workspace.scratch.SameLengths workspace.scratch ∧
      AgreesOutside low high workspace.values sorted.workspace.values ∧
      IsStableSort (Precedes order) (segment workspace.values low high)
        (segment sorted.workspace.values low high) := by
  obtain ⟨sorted, hcall, hsorted⟩ :=
    engine.sortRangeBy_performs compare schedule memory hfits hargs
  refine ⟨sorted, hcall, hsorted.verdict, hsorted.lengths, hsorted.outside, ?_⟩
  rw [hsorted.range, listSort_of_follows hfollows]
  exact mergeSort_isStableSort _

/-- Two neighbouring ranges are sorted one after the other. Neither sort touches the range of the
    other, so both are sorted in the end. -/
theorem Engine.sort_both_stable (engine : Engine) (schedule : Schedule) {low mid high : Nat}
    {workspace : Workspace α} (memory : σ) (hfits : workspace.values.size < wordLimit)
    (hlow : low ≤ mid) (hmid : mid ≤ high) (hfrontFits : RangeFits workspace low mid)
    (hbackFits : RangeFits workspace (mid + 1) high) :
    ∃ front back,
      engine.sortRangeBy compare schedule low mid workspace memory = .ok front ∧
      front.verdict = .ok () ∧
      engine.sortRangeBy compare schedule (mid + 1) high front.workspace front.memory = .ok back ∧
      back.verdict = .ok () ∧
      back.workspace.scratch.SameLengths workspace.scratch ∧
      AgreesOutside low high workspace.values back.workspace.values ∧
      IsStableSort (Precedes order) (segment workspace.values low mid)
        (segment back.workspace.values low mid) ∧
      IsStableSort (Precedes order) (segment workspace.values (mid + 1) high)
        (segment back.workspace.values (mid + 1) high) := by
  obtain ⟨front, hfrontCall, hfrontVerdict, hfrontLengths, hfrontOutside, hfront⟩ :=
    engine.sortRangeBy_stable hfollows schedule memory hfits hfrontFits
  have hsize := hfrontOutside.size
  obtain ⟨back, hbackCall, hbackVerdict, hbackLengths, hbackOutside, hback⟩ :=
    engine.sortRangeBy_stable hfollows schedule front.memory (by omega)
      (hbackFits.of_lengths hsize hfrontLengths)
  -- The back range stood as it did when its sort began, and the front range stays sorted.
  rw [hfrontOutside.segment_eq (Or.inr (Nat.lt_succ_self mid))] at hback
  rw [← hbackOutside.segment_eq (Or.inl (Nat.lt_succ_self mid))] at hfront
  have houtside : AgreesOutside low high workspace.values back.workspace.values :=
    (hfrontOutside.widen (Nat.le_refl low) hmid).trans
      (hbackOutside.widen (by omega) (Nat.le_refl high))
  exact ⟨front, back, hfrontCall, hfrontVerdict, hbackCall, hbackVerdict,
    hbackLengths.trans hfrontLengths, houtside, hfront, hback⟩

/-- A merge of two runs that are stable sorts leaves the stable sort of what both were sorted from. -/
theorem mergeBy_stable {low mid high : Nat} (workspace : Workspace α) {xs ys : List α} (memory : σ)
    (hfits : workspace.values.size < wordLimit) (hlow : low ≤ mid) (hmid : mid ≤ high)
    (hhigh : high < workspace.values.size) (hleft : mid - low + 1 ≤ workspace.scratch.left.size)
    (hright : high - mid ≤ workspace.scratch.right.size)
    (hxs : IsStableSort (Precedes order) xs (segment workspace.values low mid))
    (hys : IsStableSort (Precedes order) ys (segment workspace.values (mid + 1) high)) :
    ∃ merged, mergeBy compare low mid high workspace memory = .ok merged ∧
      merged.verdict = .ok () ∧
      AgreesOutside low high workspace.values merged.workspace.values ∧
      IsStableSort (Precedes order) (xs ++ ys) (segment merged.workspace.values low high) := by
  obtain ⟨merged, hcall, hmerged⟩ :=
    mergeBy_performs compare memory hfits hlow hmid hhigh hleft hright
  refine ⟨merged, hcall, hmerged.verdict, hmerged.outside, ?_⟩
  rw [hmerged.range, listMerge_of_follows hfollows]
  exact hxs.merge hys

end

/-- Wherever a range is cut, sorting both pieces and merging them leaves the same values as sorting the
    whole range, with any engine on either way and whatever the buffers hold. If both pieces are in
    order already, the merge alone does. -/
theorem pieces_agree_with_whole (order : α → α → Ordering) [IsStrictWeakOrder α (Precedes order)]
    {compare : Comparator σ α} (hfollows : compare.Follows order) (engine engine' : Engine)
    (schedule schedule' : Schedule) (values : Array α) (hfits : values.size < wordLimit)
    {low mid high : Nat} (hlow : low ≤ mid) (hmid : mid ≤ high) (hhigh : high < values.size)
    (scratch' : Scratch α) (hwhole : RangeFits ⟨values, scratch'⟩ low high) (memory memory' : σ) :
    ∃ whole, engine'.sortRangeBy compare schedule' low high ⟨values, scratch'⟩ memory' = .ok whole ∧
      whole.verdict = .ok () ∧
      ∀ scratch : Scratch α, mid - low + 1 ≤ scratch.left.size → high - mid ≤ scratch.right.size →
        (RangeFits ⟨values, scratch⟩ low mid → RangeFits ⟨values, scratch⟩ (mid + 1) high →
          ∃ front back merged,
            engine.sortRangeBy compare schedule low mid ⟨values, scratch⟩ memory = .ok front ∧
            front.verdict = .ok () ∧
            engine.sortRangeBy compare schedule (mid + 1) high front.workspace front.memory =
              .ok back ∧
            back.verdict = .ok () ∧
            mergeBy compare low mid high back.workspace back.memory = .ok merged ∧
            merged.verdict = .ok () ∧
            merged.workspace.values = whole.workspace.values) ∧
        ((segment values low mid).Pairwise (fun a b => ¬ Precedes order b a) →
          (segment values (mid + 1) high).Pairwise (fun a b => ¬ Precedes order b a) →
          ∃ merged,
            mergeBy compare low mid high ⟨values, scratch⟩ memory = .ok merged ∧
            merged.verdict = .ok () ∧
            merged.workspace.values = whole.workspace.values) := by
  obtain ⟨whole, hcall, hverdict, -, houtside, hstable⟩ :=
    engine'.sortRangeBy_stable hfollows schedule' memory' hfits hwhole
  have hcut : segment values low mid ++ segment values (mid + 1) high = segment values low high :=
    segment_append values (by omega) hmid
  refine ⟨whole, hcall, hverdict, ?_⟩
  intro scratch hleft hright
  constructor
  · intro hfrontFits hbackFits
    obtain ⟨front, back, hfrontCall, hfrontVerdict, hbackCall, hbackVerdict, hlengths, hsorts, hfront,
      hback⟩ := engine.sort_both_stable hfollows schedule memory hfits hlow hmid hfrontFits hbackFits
    have hsize : back.workspace.values.size = values.size := hsorts.size
    have hleft' : back.workspace.scratch.left.size = scratch.left.size := hlengths.left
    have hright' : back.workspace.scratch.right.size = scratch.right.size := hlengths.right
    obtain ⟨merged, hmergeCall, hmergeVerdict, hmerges, hmerged⟩ :=
      mergeBy_stable hfollows back.workspace back.memory (by omega) hlow hmid (by omega) (by omega)
        (by omega) hfront hback
    rw [hcut] at hmerged
    exact ⟨front, back, merged, hfrontCall, hfrontVerdict, hbackCall, hbackVerdict, hmergeCall,
      hmergeVerdict, (hsorts.trans hmerges).eq_of_stable houtside hmerged hstable⟩
  · intro hfrontSorted hbackSorted
    obtain ⟨merged, hmergeCall, hmergeVerdict, hmerges, hmerged⟩ :=
      mergeBy_stable hfollows ⟨values, scratch⟩ memory hfits hlow hmid hhigh hleft hright
        (.of_sorted hfrontSorted) (.of_sorted hbackSorted)
    rw [hcut] at hmerged
    exact ⟨merged, hmergeCall, hmergeVerdict, hmerges.eq_of_stable houtside hmerged hstable⟩

/-- Pairs that tie in their first component, cut behind the fourth of five, with both pieces in order
    already. The pieces are sorted by forks and the whole from left to right. -/
theorem pieces_agree_with_whole_pairs :
    let values : Array (Nat × Nat) := #[(5, 0), (1, 1), (2, 2), (2, 3), (3, 4), (2, 5), (0, 6)]
    let scratch : Scratch (Nat × Nat) := ⟨Array.replicate 4 (9, 9), Array.replicate 2 (8, 8)⟩
    let compare : Comparator Unit (Nat × Nat) := .ofOrder (compareOn Prod.fst)
    values.size < wordLimit ∧
    ∃ whole front back merged merged',
      Sequential.sortRangeBy compare 1 5 ⟨values, scratch⟩ () = .ok whole ∧
      ForkJoin.sortRangeBy compare .leftFirst 1 4 ⟨values, scratch⟩ () = .ok front ∧
      ForkJoin.sortRangeBy compare .leftFirst 5 5 front.workspace front.memory = .ok back ∧
      mergeBy compare 1 4 5 back.workspace back.memory = .ok merged ∧
      merged.workspace.values = whole.workspace.values ∧
      mergeBy compare 1 4 5 ⟨values, scratch⟩ () = .ok merged' ∧
      merged'.workspace.values = whole.workspace.values := by
  intro values scratch compare
  have hweak : IsStrictWeakOrder (Nat × Nat) (Precedes (compareOn Prod.fst)) :=
    precedes_isStrictWeakOrder _
  have hfits : values.size < wordLimit := by decide
  have hwhole : RangeFits ⟨values, scratch⟩ 1 5 := fun _ => by decide
  obtain ⟨whole, hcall, -, hpieces⟩ := pieces_agree_with_whole (compareOn Prod.fst)
    (Comparator.ofOrder_follows _) .forkJoin .sequential .leftFirst .leftFirst values hfits
    (show 1 ≤ 4 by decide) (show 4 ≤ 5 by decide) (by decide) scratch hwhole () ()
  obtain ⟨hsorts, hmerges⟩ := hpieces scratch (by decide) (by decide)
  obtain ⟨front, back, merged, hfront, -, hback, -, hmerged, -, hsame⟩ :=
    hsorts (fun _ => by decide) (fun _ => by decide)
  obtain ⟨merged', hmerged', -, hsame'⟩ := hmerges (by decide) (by decide)
  exact ⟨hfits, whole, front, back, merged, merged', hcall, hfront, hback, hmerged, hsame, hmerged',
    hsame'⟩

end MicroBench

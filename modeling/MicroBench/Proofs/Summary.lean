import MicroBench.Timing.Summary

/-! # What a summary tells

  The samples are put in ascending order, and the statistics are read off at fixed places of the sorted
  list. So the least of them is at most the median, and the median is at most the greatest, whatever was
  measured. Samples can be put in ascending order in one way only, so it does not matter in which order
  they were measured.

  - `Duration.le_iff` says that durations compare like the times that they stand for.
  - `Summary.ofSamples_eq` says where the statistics are read off, and `Summary.ofSamples_snd` in which
    order the samples are left.
  - `Summary.InOrder` is what can be relied on, and `Summary.ofSamples_inOrder` proves it.
  - `countP_shorter_le` and `countP_longer_le` bound how many samples lie on either side of one of them.
  - `Summary.Describes` is all that a summary says about its samples, and
    `summary_depends_on_samples_only` proves it.
-/

namespace MicroBench

/-! ## Durations in order -/

namespace Duration

/-- A duration as a number of nanoseconds. -/
def nanoseconds (d : Duration) : Nat := d.seconds.toNat * 1000000000 + d.nanos.toNat

/-- To compare first the seconds and then the nanoseconds is to compare the times as a whole, since the
    nanoseconds never make up a second. -/
theorem le_iff {a b : Duration} : a.le b = true ↔ a.nanoseconds ≤ b.nanoseconds := by
  have ha := a.nanos_lt
  have hb := b.nanos_lt
  unfold le nanoseconds
  simp only [Bool.or_eq_true, Bool.and_eq_true, decide_eq_true_eq, beq_iff_eq,
    UInt64.lt_iff_toNat_lt, UInt32.le_iff_toNat_le, ← UInt64.toNat_inj]
  omega

theorem le_trans (a b c : Duration) (hab : a.le b = true) (hbc : b.le c = true) :
    a.le c = true := by
  rw [le_iff] at *
  exact Nat.le_trans hab hbc

theorem le_total (a b : Duration) : (a.le b || b.le a) = true := by
  rw [Bool.or_eq_true, le_iff, le_iff]
  exact Nat.le_total a.nanoseconds b.nanoseconds

/-- Durations that are equally long are the same, since their nanoseconds never make up a second. -/
theorem le_antisymm {a b : Duration} (hab : a.le b = true) (hba : b.le a = true) : a = b := by
  rw [le_iff] at hab hba
  unfold nanoseconds at hab hba
  have ha := a.nanos_lt
  have hb := b.nanos_lt
  have hseconds : a.seconds = b.seconds := UInt64.toNat_inj.mp (by omega)
  have hnanos : a.nanos = b.nanos := UInt32.toNat_inj.mp (by omega)
  cases a
  cases b
  simp_all

end Duration

/-! ## Sorted samples -/

theorem length_sortedSamples (samples : List Duration) :
    (sortedSamples samples).length = samples.length := List.length_mergeSort samples

theorem sortedSamples_perm (samples : List Duration) : (sortedSamples samples).Perm samples :=
  List.mergeSort_perm samples Duration.le

theorem sortedSamples_ascending (samples : List Duration) :
    (sortedSamples samples).Pairwise fun a b => a.le b = true :=
  List.pairwise_mergeSort Duration.le_trans Duration.le_total samples

/-- A sample does not exceed those behind it in the sorted list. -/
theorem sortedSamples_le (samples : List Duration) {i j : Nat} (hij : i ≤ j)
    (hj : j < (sortedSamples samples).length) :
    ((sortedSamples samples)[i]).le (sortedSamples samples)[j] = true := by
  have hascending := sortedSamples_ascending samples
  rcases Nat.eq_or_lt_of_le hij with rfl | hlt
  · exact Duration.le_iff.mpr (Nat.le_refl _)
  · exact List.pairwise_iff_getElem.mp hascending i j (by omega) hj hlt

/-- There is one ascending arrangement of the samples, and sorting finds it. -/
theorem sortedSamples_unique {samples ascending : List Duration} (hperm : ascending.Perm samples)
    (hascending : ascending.Pairwise fun a b => a.le b = true) :
    sortedSamples samples = ascending :=
  List.Perm.eq_of_pairwise (fun _ _ _ _ => Duration.le_antisymm) (sortedSamples_ascending samples)
    hascending ((sortedSamples_perm samples).trans hperm.symm)

theorem sortedSamples_of_perm {samples reordered : List Duration} (hperm : reordered.Perm samples) :
    sortedSamples reordered = sortedSamples samples :=
  sortedSamples_unique ((sortedSamples_perm samples).trans hperm.symm)
    (sortedSamples_ascending samples)

/-- To count samples, one can cut the sorted list in two anywhere. -/
theorem countP_sortedSamples (samples : List Duration) (counted : Duration → Bool) (k : Nat) :
    samples.countP counted =
      ((sortedSamples samples).take k).countP counted +
        ((sortedSamples samples).drop k).countP counted := by
  rw [← List.countP_append, List.take_append_drop, (sortedSamples_perm samples).countP_eq]

/-- Only samples in front of a place in the sorted list can be shorter than the one at that place. -/
theorem countP_shorter_le (samples : List Duration) {k : Nat}
    (hk : k < (sortedSamples samples).length) :
    samples.countP (fun d => !((sortedSamples samples)[k]).le d) ≤ k := by
  have hfront : ((sortedSamples samples).take k).countP
      (fun d => !((sortedSamples samples)[k]).le d) ≤ k :=
    Nat.le_trans List.countP_le_length (List.length_take_le k _)
  have hback : ((sortedSamples samples).drop k).countP
      (fun d => !((sortedSamples samples)[k]).le d) = 0 := by
    rw [List.countP_eq_zero]
    intro d hd
    obtain ⟨i, hi, rfl⟩ := List.mem_drop_iff_getElem.mp hd
    simp [sortedSamples_le samples (Nat.le_add_right k i) (by omega)]
  rw [countP_sortedSamples samples _ k]
  omega

/-- Only samples behind a place in the sorted list can be longer than the one at that place. -/
theorem countP_longer_le (samples : List Duration) {k : Nat}
    (hk : k < (sortedSamples samples).length) :
    samples.countP (fun d => !d.le (sortedSamples samples)[k]) ≤
      (sortedSamples samples).length - 1 - k := by
  have hfront : ((sortedSamples samples).take (k + 1)).countP
      (fun d => !d.le (sortedSamples samples)[k]) = 0 := by
    rw [List.countP_eq_zero]
    intro d hd
    obtain ⟨i, hi, rfl⟩ := List.mem_take_iff_getElem.mp hd
    simp [sortedSamples_le samples (show i ≤ k by omega) hk]
  have hback : ((sortedSamples samples).drop (k + 1)).countP
      (fun d => !d.le (sortedSamples samples)[k]) ≤ (sortedSamples samples).length - (k + 1) := by
    rw [← List.length_drop]
    exact List.countP_le_length
  rw [countP_sortedSamples samples _ (k + 1)]
  omega

namespace Summary

/-- Without samples there is nothing to sum up and nothing to sort. -/
theorem ofSamples_nil : ofSamples [] = (none, []) := by
  simp [ofSamples, sortedSamples]

/-- Whether there is a summary or not, the samples are left sorted. -/
theorem ofSamples_snd (samples : List Duration) : (ofSamples samples).2 = sortedSamples samples := by
  simp only [ofSamples]
  split <;> rfl

/-- If there are samples, the statistics stand at the two ends and in the middle of the sorted list. -/
theorem ofSamples_eq {samples sorted : List Duration} (hsorted : sortedSamples samples = sorted)
    (hsome : 0 < sorted.length) :
    ofSamples samples =
      (some ⟨sorted.length, sorted[sorted.length / 2], sorted[0], sorted[sorted.length - 1],
        spreadOf sorted[0] sorted[sorted.length - 1]⟩, sorted) := by
  have hhead : sorted.head? = some sorted[0] := by
    rw [List.head?_eq_getElem?, List.getElem?_eq_getElem]
  have hmiddle : sorted[sorted.length / 2]? = some sorted[sorted.length / 2] :=
    List.getElem?_eq_getElem (by omega)
  have hlast : sorted.getLast? = some sorted[sorted.length - 1] := by
    rw [List.getLast?_eq_getElem?, List.getElem?_eq_getElem]
  unfold ofSamples
  simp only [hsorted, hhead, hmiddle, hlast]

/-- The summary is about the given number of samples, and its statistics are in order. -/
structure InOrder (count : Nat) (summary : Summary) : Prop where
  samples : summary.samples = count
  min_le_median : summary.min.le summary.median = true
  median_le_max : summary.median.le summary.max = true

/-- Samples, if there are any, have a summary in order. -/
theorem ofSamples_inOrder {samples : List Duration} (hsome : 0 < samples.length) :
    ∃ summary, (ofSamples samples).1 = some summary ∧ summary.InOrder samples.length := by
  rw [← length_sortedSamples] at hsome
  refine ⟨_, congrArg Prod.fst (ofSamples_eq rfl hsome), length_sortedSamples samples, ?_, ?_⟩
  · exact sortedSamples_le samples (Nat.zero_le _) (by omega)
  · exact sortedSamples_le samples (by omega) (by omega)

/-- What a summary says about its samples: the extremes are the least and the greatest of them, the
    median is one of them with at most half of them on either side, and the spread is the ratio of the
    extremes. -/
structure Describes (measured : List Duration) (summary : Summary) : Prop
    extends InOrder measured.length summary where
  min_mem : summary.min ∈ measured
  min_le : ∀ d ∈ measured, summary.min.le d = true
  max_mem : summary.max ∈ measured
  le_max : ∀ d ∈ measured, d.le summary.max = true
  median_mem : summary.median ∈ measured
  shorter : measured.countP (fun d => !summary.median.le d) ≤ measured.length / 2
  longer : measured.countP (fun d => !d.le summary.median) ≤ measured.length - 1 - measured.length / 2
  spread : summary.spread = spreadOf summary.min summary.max

/-- Samples, if there are any, have a summary that describes them. -/
theorem ofSamples_describes {samples : List Duration} (hsome : 0 < samples.length) :
    ∃ summary, (ofSamples samples).1 = some summary ∧ summary.Describes samples := by
  obtain ⟨summary, hsummary, hinOrder⟩ := ofSamples_inOrder hsome
  refine ⟨summary, hsummary, ?_⟩
  have hlength := length_sortedSamples samples
  rw [← hlength] at hsome
  rw [ofSamples_eq rfl hsome] at hsummary
  obtain rfl := Option.some.inj hsummary
  have hmem : ∀ d, d ∈ sortedSamples samples ↔ d ∈ samples :=
    fun d => (sortedSamples_perm samples).mem_iff
  refine ⟨hinOrder, ?_, ?_, ?_, ?_, ?_, ?_, ?_, rfl⟩
  · exact (hmem _).mp (List.getElem_mem _)
  · intro d hd
    obtain ⟨i, hi, rfl⟩ := List.mem_iff_getElem.mp ((hmem d).mpr hd)
    exact sortedSamples_le samples (Nat.zero_le i) hi
  · exact (hmem _).mp (List.getElem_mem _)
  · intro d hd
    obtain ⟨i, hi, rfl⟩ := List.mem_iff_getElem.mp ((hmem d).mpr hd)
    exact sortedSamples_le samples (by omega) (by omega)
  · exact (hmem _).mp (List.getElem_mem _)
  · rw [← hlength]
    exact countP_shorter_le samples (by omega)
  · rw [← hlength]
    exact countP_longer_le samples (by omega)

/-- The summary is made from the sorted list alone. -/
theorem ofSamples_of_perm {samples reordered : List Duration} (hperm : reordered.Perm samples) :
    ofSamples reordered = ofSamples samples := by
  unfold ofSamples
  rw [sortedSamples_of_perm hperm]

end Summary

/-- There is a summary unless there are no samples, and it describes them. The samples are left in
    ascending order, of which there is only one. Whoever measures the same samples in another order is
    left with the same list and the same summary. -/
theorem summary_depends_on_samples_only (samples : List Duration) :
    ((Summary.ofSamples samples).1 = none ↔ samples = []) ∧
    (samples ≠ [] →
      ∃ summary, (Summary.ofSamples samples).1 = some summary ∧ summary.Describes samples) ∧
    ((Summary.ofSamples samples).2.Perm samples ∧
      (Summary.ofSamples samples).2.Pairwise fun a b => a.le b = true) ∧
    (∀ ascending : List Duration, ascending.Perm samples →
      (ascending.Pairwise fun a b => a.le b = true) → (Summary.ofSamples samples).2 = ascending) ∧
    ∀ reordered : List Duration, reordered.Perm samples →
      Summary.ofSamples reordered = Summary.ofSamples samples := by
  have hdescribed : samples ≠ [] →
      ∃ summary, (Summary.ofSamples samples).1 = some summary ∧ summary.Describes samples :=
    fun hsome => Summary.ofSamples_describes (List.length_pos_iff.mpr hsome)
  rw [Summary.ofSamples_snd samples]
  refine ⟨⟨?_, ?_⟩, hdescribed, ⟨sortedSamples_perm samples, sortedSamples_ascending samples⟩, ?_, ?_⟩
  · intro hnone
    cases samples with
    | nil => rfl
    | cons first others =>
      obtain ⟨summary, hsummary, -⟩ := hdescribed (List.cons_ne_nil first others)
      exact absurd (hsummary.symm.trans hnone) (Option.some_ne_none summary)
  · rintro rfl
    rw [Summary.ofSamples_nil]
  · intro ascending hperm hascending
    exact sortedSamples_unique hperm hascending
  · intro reordered hperm
    exact Summary.ofSamples_of_perm hperm

/-- Four samples, one without any time and two of the same time, and the same samples from the longest to
    the shortest. -/
theorem summary_depends_on_samples_only_four :
    let samples : List Duration := [.ofNanos 30, .zero, .ofNanos 2000000007, .ofNanos 30]
    let reordered : List Duration := [.ofNanos 2000000007, .ofNanos 30, .ofNanos 30, .zero]
    let ascending : List Duration := [.zero, .ofNanos 30, .ofNanos 30, .ofNanos 2000000007]
    ∃ summary, summary.Describes samples ∧
      Summary.ofSamples samples = (some summary, ascending) ∧
      Summary.ofSamples reordered = (some summary, ascending) := by
  intro samples reordered ascending
  obtain ⟨-, hsome, -, hunique, hreordered⟩ := summary_depends_on_samples_only samples
  obtain ⟨summary, hsummary, hdescribes⟩ := hsome (List.cons_ne_nil _ _)
  have hsorted := hunique ascending (by decide) (by decide)
  have hsummed : Summary.ofSamples samples = (some summary, ascending) := Prod.ext hsummary hsorted
  exact ⟨summary, hdescribes, hsummed, (hreordered reordered (by decide)).trans hsummed⟩

end MicroBench

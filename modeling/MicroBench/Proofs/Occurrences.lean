import MicroBench.Conformance.Suite
import MicroBench.Proofs.Arena
import MicroBench.Proofs.Lexicographic

/-! # Tags that tell stable sorts from others

  A sort by key alone must not exchange items with equal keys. To see whether it does, the keys are tagged
  with their occurrence numbers, and the sorted items are compared with their neighbours, tags included.
  That is a test of neighbours only, and the tags are words, but no unstable sort gets past it and no
  stable one is refused: within a key the tags grow like the positions, so there is one way to put all
  items in order, and this is the stable sort.

  - `Pattern.Tagging.Counts` is the invariant of the tagging, `Pattern.Tagging.Counts.next` its step and
    `Pattern.Tagging.Counts.foldl` the run over a list of keys.
  - `tagOccurrences_ties_ascend` says that the tags of a key grow.
  - `stability_check_is_exact` says that the test passes for the stable sort alone.
-/

namespace MicroBench

namespace Pattern

/-! ## The running counts -/

/-- What a tagging holds after some keys: the number of times that each key has occurred, and each key
    with the number of its occurrences up to its own position. The numbers are words. -/
structure Tagging.Counts (keys : List Int32) (tagging : Tagging) : Prop where
  counts : ∀ key, tagging.counts.getD key 0 = UInt32.ofNat (keys.count key)
  size : tagging.tagged.size = keys.length
  tagged : ∀ i : Nat, tagging.tagged[i]? =
    keys[i]?.map fun key => (key, UInt32.ofNat ((keys.take (i + 1)).count key))

theorem Tagging.Counts.start : Tagging.Counts [] {} where
  counts _ := by simp
  size := rfl
  tagged _ := by simp

/-- One more key adds one to its own count and changes nothing that was tagged before. -/
theorem Tagging.Counts.next {keys : List Int32} {tagging : Tagging} (hcounts : tagging.Counts keys)
    (key : Int32) : (tagging.next key).Counts (keys ++ [key]) where
  counts other := by
    unfold Tagging.next
    rw [Std.HashMap.getD_insert, List.count_append, List.count_singleton, UInt32.ofNat_add,
      ← hcounts.counts other]
    by_cases hsame : key = other
    · subst hsame
      simp
    · simp [hsame]
  size := by simp [Tagging.next, hcounts.size]
  tagged i := by
    have hcount : tagging.counts.getD key 0 + 1 =
        UInt32.ofNat ((keys ++ [key]).count key) := by
      rw [hcounts.counts key, List.count_append, List.count_singleton_self, UInt32.ofNat_add]
      rfl
    simp only [Tagging.next, Array.getElem?_push, hcounts.size]
    rcases Nat.lt_trichotomy i keys.length with hbefore | rfl | hbehind
    · rw [if_neg (by omega), hcounts.tagged i, List.getElem?_append_left hbefore,
        List.take_append_of_le_length (by omega)]
    · rw [if_pos rfl, List.getElem?_concat_length, Option.map_some, hcount,
        List.take_of_length_le (by simp)]
    · rw [if_neg (by omega), hcounts.tagged i, List.getElem?_eq_none (by omega),
        List.getElem?_eq_none (by simp; omega)]
      rfl

/-- The counts stay right over any number of keys. -/
theorem Tagging.Counts.foldl {keys : List Int32} {tagging : Tagging} (hcounts : tagging.Counts keys)
    (later : List Int32) : (later.foldl Tagging.next tagging).Counts (keys ++ later) := by
  induction later generalizing keys tagging with
  | nil =>
    rw [List.append_nil]
    exact hcounts
  | cons key later ih =>
    rw [List.append_cons]
    exact ih (hcounts.next key)

/-! ## Tagged keys -/

theorem length_tagOccurrences (keys : List Int32) : (tagOccurrences keys).length = keys.length :=
  (Tagging.Counts.start.foldl keys).size

/-- Each key is tagged with the number of its occurrences so far, as a word. -/
theorem getElem?_tagOccurrences (keys : List Int32) (i : Nat) :
    (tagOccurrences keys)[i]? =
      keys[i]?.map fun key => (key, UInt32.ofNat ((keys.take (i + 1)).count key)) := by
  have htagged := (Tagging.Counts.start.foldl keys).tagged i
  rw [← Array.getElem?_toList] at htagged
  exact htagged

/-- A word has room for the number of occurrences in a list that is shorter than words go. -/
theorem toNat_occurrences {keys : List Int32} (hfits : keys.length < 2 ^ 32) (i : Nat) (key : Int32) :
    (UInt32.ofNat ((keys.take (i + 1)).count key)).toNat = (keys.take (i + 1)).count key := by
  have hcount : (keys.take (i + 1)).count key ≤ (keys.take (i + 1)).length := List.count_le_length
  have hlength : (keys.take (i + 1)).length ≤ keys.length := List.length_take_le' (i + 1) keys
  rw [UInt32.toNat_ofNat']
  exact Nat.mod_eq_of_lt (by omega)

/-- A key that occurs again has occurred more often by then. -/
theorem count_take_lt {keys : List Int32} {i j : Nat} {key : Int32} (hij : i < j)
    (hj : keys[j]? = some key) :
    (keys.take (i + 1)).count key < (keys.take (j + 1)).count key := by
  have hprefix : (keys.take (i + 1)).count key ≤ (keys.take j).count key :=
    (List.take_prefix_take_left (by omega)).sublist.count_le key
  have hlast : (keys.take (j + 1)).count key = (keys.take j).count key + 1 := by
    rw [List.take_add_one, hj, List.count_append]
    simp
  omega

/-- Of two items with one key, the later one has the greater tag. -/
theorem tagOccurrences_ties_ascend {keys : List Int32} (hfits : keys.length < 2 ^ 32) :
    (tagOccurrences keys).Pairwise fun a b => a.1 = b.1 → a.2 < b.2 := by
  rw [List.pairwise_iff_getElem]
  intro i j hi hj hij hsame
  obtain ⟨first, hfirst, hfirst'⟩ := Option.map_eq_some_iff.mp
    ((getElem?_tagOccurrences keys i).symm.trans (List.getElem?_eq_getElem hi))
  obtain ⟨last, hlast, hlast'⟩ := Option.map_eq_some_iff.mp
    ((getElem?_tagOccurrences keys j).symm.trans (List.getElem?_eq_getElem hj))
  rw [← hfirst', ← hlast'] at hsame ⊢
  obtain rfl : first = last := hsame
  rw [UInt32.lt_iff_toNat_lt, toNat_occurrences hfits, toNat_occurrences hfits]
  exact count_take_lt hij hlast

end Pattern

namespace Conformance

open Pattern

/-! ## Tagged items in order -/

instance : Std.TransCmp (Item.order : Int32 × UInt32 → Int32 × UInt32 → Ordering) :=
  inferInstanceAs (Std.TransCmp (compareLex (compareOn Prod.fst) (compareOn Prod.snd)))

/-- The first item may stand in front of the second one: it has a smaller key, or the same key and a tag
    that is not greater. -/
def InOrder (a b : Int32 × UInt32) : Prop := a.1 < b.1 ∨ a.1 = b.1 ∧ a.2 ≤ b.2

theorem isLE_order_iff {a b : Int32 × UInt32} : (Item.order a b).isLE = true ↔ InOrder a b := by
  show ((compare a.1 b.1).then (compare a.2 b.2)).isLE = true ↔ InOrder a b
  rw [Ordering.isLE_then_iff_or, Std.compare_eq_lt, Std.compare_eq_iff_eq, Std.isLE_compare]
  rfl

/-- Two items can stand in front of each other only if they are the same. -/
theorem InOrder.antisymm {a b : Int32 × UInt32} (hab : InOrder a b) (hba : InOrder b a) : a = b := by
  rcases hab with hless | ⟨hkey, htag⟩
  · rcases hba with hgreater | ⟨hkey, -⟩
    · exact absurd hgreater (Int32.lt_asymm hless)
    · exact absurd hkey.symm (Int32.ne_of_lt hless)
  · rcases hba with hgreater | ⟨-, htag'⟩
    · exact absurd hkey.symm (Int32.ne_of_lt hgreater)
    · exact Prod.ext hkey (UInt32.le_antisymm htag htag')

/-- The test looks at neighbours, and what it finds holds of all pairs. -/
theorem isStablySorted_iff (items : List (Int32 × UInt32)) :
    isStablySorted items = true ↔ items.Pairwise InOrder := by
  have hle : ∀ a b : Int32 × UInt32, (Item.order a b != .gt) = (Item.order a b).isLE := by
    intro a b
    cases Item.order a b <;> rfl
  unfold isStablySorted
  simp only [hle]
  rw [adjacent_iff_pairwise fun a b c => Std.TransCmp.isLE_trans]
  simp only [isLE_order_iff]

/-! ## The test for stability -/

/-- Items are compared by their keys alone. -/
def byKey (a b : Int32 × UInt32) : Ordering := compare a.1 b.1

instance : Std.TransCmp byKey := inferInstanceAs (Std.TransCmp (compareOn Prod.fst))

/-- A stable sort by key leaves the tagged items in order, tags included. -/
theorem inOrder_of_stable {keys : List Int32} (hfits : keys.length < 2 ^ 32)
    {sorted : List (Int32 × UInt32)}
    (hstable : IsStableSort (Precedes byKey) (tagOccurrences keys) sorted) :
    sorted.Pairwise InOrder := by
  apply (hstable.pairwise (tagOccurrences_ties_ascend hfits)).imp
  rintro a b ⟨hfront, hties⟩
  have hle : a.1 ≤ b.1 := Int32.not_lt.mp fun hless => hfront (Std.compare_eq_lt.mpr hless)
  rcases Int32.lt_or_eq_of_le hle with hless | hkey
  · exact Or.inl hless
  · -- The keys tie, so the items stand as they were tagged.
    have htie : ¬ Precedes byKey a b := fun hless =>
      Int32.ne_of_lt (Std.compare_eq_lt.mp hless) hkey
    exact Or.inr ⟨hkey, UInt32.le_of_lt (hties htie hkey)⟩

/-- Whatever order the tagged items are in, if they are in order, they are in this one. -/
theorem eq_of_inOrder {xs ys : List (Int32 × UInt32)} (hperm : xs.Perm ys)
    (hxs : xs.Pairwise InOrder) (hys : ys.Pairwise InOrder) : xs = ys :=
  hperm.eq_of_pairwise (fun _ _ _ _ => InOrder.antisymm) hxs hys

/-- The check on some keys is the test of what the candidate makes of the tagged keys. -/
theorem checkStable_of_sorted {candidate : Candidate} {keys : List Int32}
    {items : Array (Int32 × UInt32)}
    (hsorted : candidate.sortBy (.ofOrder byKey) (tagOccurrences keys).toArray () = .ok (items, ())) :
    checkStable candidate keys = .ok () ↔ isStablySorted items.toList = true := by
  have hcheck : checkStable candidate keys = assert (isStablySorted items.toList) := by
    show (tried (candidate.sortBy (.ofOrder byKey) (tagOccurrences keys).toArray ()) >>= fun sorted =>
      assert (isStablySorted sorted.1.toList)) = _
    rw [hsorted]
    rfl
  rw [hcheck]
  cases isStablySorted items.toList with
  | true => simp [assert]
  | false => simp [assert]

/-- The tags number the occurrences of each key, and the test that compares neighbours, tags included,
    passes for one rearrangement of the tagged keys only: their stable sort by key. So a sort that
    rearranges its items passes the check on these keys exactly if it has sorted them stably. -/
theorem stability_check_is_exact (keys : List Int32) (hfits : keys.length < 2 ^ 32) :
    (tagOccurrences keys).length = keys.length ∧
    (∀ i (hi : i < keys.length), ∃ tag : UInt32,
      (tagOccurrences keys)[i]? = some (keys[i], tag) ∧
      tag.toNat = (keys.take (i + 1)).count keys[i]) ∧
    (∀ items : List (Int32 × UInt32), items.Perm (tagOccurrences keys) →
      (isStablySorted items = true ↔
        IsStableSort (Precedes byKey) (tagOccurrences keys) items)) ∧
    ∀ (candidate : Candidate) (items : Array (Int32 × UInt32)),
      candidate.sortBy (.ofOrder byKey) (tagOccurrences keys).toArray () = .ok (items, ()) →
      items.toList.Perm (tagOccurrences keys) →
      (checkStable candidate keys = .ok () ↔
        IsStableSort (Precedes byKey) (tagOccurrences keys) items.toList) := by
  have hexact : ∀ items : List (Int32 × UInt32), items.Perm (tagOccurrences keys) →
      (isStablySorted items = true ↔
        IsStableSort (Precedes byKey) (tagOccurrences keys) items) := by
    intro items hperm
    rw [isStablySorted_iff]
    constructor
    · intro hitems
      have hstable : IsStableSort (Precedes byKey) (tagOccurrences keys)
          ((tagOccurrences keys).mergeSort (mayPrecede byKey)) := mergeSort_isStableSort _
      -- The stable sort is in order as well, so it is what the test was given.
      rw [eq_of_inOrder (hperm.trans hstable.perm.symm) hitems (inOrder_of_stable hfits hstable)]
      exact hstable
    · exact inOrder_of_stable hfits
  refine ⟨length_tagOccurrences keys, ?_, hexact, ?_⟩
  · intro i hi
    refine ⟨_, ?_, toNat_occurrences hfits i keys[i]⟩
    rw [getElem?_tagOccurrences, List.getElem?_eq_getElem hi, Option.map_some]
  · intro candidate items hsorted hperm
    rw [checkStable_of_sorted hsorted]
    exact hexact items.toList hperm

/-- One key occurs twice. The test passes for the stable sort and not for the sort that exchanges the
    two, and so a candidate that reverses ties fails the check. -/
theorem stability_check_is_exact_sixes :
    IsStableSort (Precedes byKey) (tagOccurrences [6, 5, 6]) [(5, 1), (6, 1), (6, 2)] ∧
    ¬ IsStableSort (Precedes byKey) (tagOccurrences [6, 5, 6]) [(5, 1), (6, 2), (6, 1)] ∧
    checkStable .unstable [6, 5, 6] ≠ .ok () := by
  obtain ⟨-, -, htest, hcheck⟩ := stability_check_is_exact [6, 5, 6] (by decide)
  have htagged : tagOccurrences [6, 5, 6] = [(6, 1), (5, 1), (6, 2)] := by
    simp [tagOccurrences, Tagging.next, Std.HashMap.getD_insert]
  have hreversed : Candidate.unstable.sortBy (.ofOrder byKey) #[(6, 1), (5, 1), (6, 2)] () =
      .ok (#[(5, 1), (6, 2), (6, 1)], ()) := by decide +kernel
  rw [htagged] at htest hcheck ⊢
  have hstable := (htest [(5, 1), (6, 1), (6, 2)] (by decide)).mp (by decide)
  have hunstable : ¬ IsStableSort (Precedes byKey) [(6, 1), (5, 1), (6, 2)]
      [(5, 1), (6, 2), (6, 1)] := by
    rw [← htest [(5, 1), (6, 2), (6, 1)] (by decide)]
    decide
  refine ⟨hstable, hunstable, ?_⟩
  rw [Ne, hcheck .unstable _ hreversed (by decide)]
  exact hunstable

end Conformance

end MicroBench

import MicroBench.Proofs.Contract

/-! # Which positions are compared

  A sort never compares two items twice, and it always asks about the one that stood further back
  first. This holds for every oracle, since the answers only decide how far a merge gets: as long as
  two halves have not been merged, each holds the items of its own positions, and the merge that brings
  two positions together is the only one that does.

  Items carry no positions. So the sort is run a second time on the same items with their positions
  beside them, and with an oracle that does not look at these. Both runs go through the same motions:
  without the positions, the second is the first.

  - `Comparator.Mirrors` relates the two runs, `listMerge_map` and `listSort_map` carry it through.
  - `CallsInOrder` says which calls a sort may add to the log; `listMerge_calls_across` is about one
    merge and `listSort_callsInOrder` is the run over the recursion.
  - `calls_meet_positions_once` is the result for all sorts of both engines.
-/

namespace MicroBench

variable {σ τ α β : Type}

/-! ## Runs with something beside the items -/

/-- The second comparator answers about the images of items as the first one does about the items, and
    its memory is the image of the first one's. -/
def Comparator.Mirrors (compare : Comparator σ α) (compare' : Comparator τ β) (f : α → β)
    (g : σ → τ) : Prop :=
  ∀ a b memory, compare' (f a) (f b) (g memory) =
    ((compare a b memory).1, g (compare a b memory).2)

section

variable {compare : Comparator σ α} {compare' : Comparator τ β} {f : α → β} {g : σ → τ}

theorem listMerge_map (hmirrors : compare.Mirrors compare' f g) (xs ys : List α) (memory : σ) :
    listMerge compare' (xs.map f) (ys.map f) (g memory) =
      ((listMerge compare xs ys memory).1.map f, g (listMerge compare xs ys memory).2) := by
  fun_induction listMerge compare xs ys memory with
  | case1 ys memory => rw [List.map_nil, listMerge]
  | case2 x xs memory => rw [List.map_cons, List.map_nil, listMerge]
  | case3 x xs y ys memory hless rest ih =>
    have hless' : (compare' (f y) (f x) (g memory)).1 = .lt := by
      rw [hmirrors]
      exact hless
    rw [List.map_cons] at ih
    rw [List.map_cons, List.map_cons, listMerge, if_pos hless', hmirrors, ih]
    rfl
  | case4 x xs y ys memory hless rest ih =>
    have hless' : ¬ (compare' (f y) (f x) (g memory)).1 = .lt := by
      rw [hmirrors]
      exact hless
    rw [List.map_cons] at ih
    rw [List.map_cons, List.map_cons, listMerge, if_neg hless', hmirrors, ih]
    rfl

theorem listSort_map (hmirrors : compare.Mirrors compare' f g) (schedule : Schedule) (xs : List α)
    (memory : σ) :
    listSort compare' schedule (xs.map f) (g memory) =
      ((listSort compare schedule xs memory).1.map f, g (listSort compare schedule xs memory).2) := by
  induction xs using halving_induction generalizing schedule memory with
  | short xs hshort =>
    rw [listSort_of_short compare schedule memory hshort,
      listSort_of_short compare' schedule (g memory) (by rw [List.length_map]; exact hshort)]
  | long xs hlong ihl ihr =>
    rw [listSort_of_long compare schedule memory hlong,
      listSort_of_long compare' schedule (g memory) (by rw [List.length_map]; exact hlong)]
    simp only [List.length_map, ← List.map_take, ← List.map_drop]
    cases schedule [] with
    | left => simp only [inTurn, ihl, ihr, listMerge_map hmirrors]
    | right => simp only [inTurn, ihl, ihr, listMerge_map hmirrors]

end

/-! ## Calls that a task adds -/

/-- The task adds calls with the given property to the log, whatever the log holds already. -/
def AddsCalls (property : List (α × α) → Prop) (task : CallLog α → β × CallLog α) : Prop :=
  ∀ calls, ∃ added, (task calls).2.toList = calls.toList ++ added ∧ property added

/-- Two tasks in turn add the calls of both, whichever comes first. -/
theorem AddsCalls.inTurn {γ : Type} {p q : List (α × α) → Prop} {left : CallLog α → β × CallLog α}
    {right : CallLog α → γ × CallLog α} (hleft : AddsCalls p left) (hright : AddsCalls q right)
    (first : Side) (calls : CallLog α) :
    ∃ a b added, p a ∧ q b ∧ added.Perm (a ++ b) ∧
      (inTurn first left right calls).2.2.toList = calls.toList ++ added := by
  cases first with
  | left =>
    obtain ⟨a, hlog, ha⟩ := hleft calls
    obtain ⟨b, hlog', hb⟩ := hright (left calls).2
    refine ⟨a, b, a ++ b, ha, hb, .refl _, ?_⟩
    rw [← List.append_assoc, ← hlog]
    exact hlog'
  | right =>
    obtain ⟨b, hlog, hb⟩ := hright calls
    obtain ⟨a, hlog', ha⟩ := hleft (right calls).2
    refine ⟨a, b, b ++ a, ha, hb, List.perm_append_comm, ?_⟩
    rw [← List.append_assoc, ← hlog]
    exact hlog'

section

variable (pos : α → Nat)

/-- The two calls ask about the same positions. -/
def SamePositions (call call' : α × α) : Prop := pos call.1 = pos call'.1 ∧ pos call.2 = pos call'.2

/-- Every call asks about an item of the right run and one of the left run, and no two calls ask about
    the same positions. -/
structure CallsAcross (left right : List α) (calls : List (α × α)) : Prop where
  items : ∀ call ∈ calls, call.1 ∈ right ∧ call.2 ∈ left
  once : calls.Pairwise fun call call' => ¬ SamePositions pos call call'

/-- Every call asks about two items of the list, the one that stands further back first, and no two
    calls ask about the same positions. -/
structure CallsInOrder (xs : List α) (calls : List (α × α)) : Prop where
  items : ∀ call ∈ calls, call.1 ∈ xs ∧ call.2 ∈ xs
  later : ∀ call ∈ calls, pos call.2 < pos call.1
  once : calls.Pairwise fun call call' => ¬ SamePositions pos call call'

end

section

variable {pos : α → Nat}

/-- A call about the fronts of two runs, and then calls about what is left of them. -/
theorem CallsAcross.cons {left right left' right' : List α} {calls : List (α × α)} {x y : α}
    (hcalls : CallsAcross pos left' right' calls) (hleft : ∀ a ∈ left', a ∈ left)
    (hright : ∀ b ∈ right', b ∈ right) (hx : x ∈ left) (hy : y ∈ right)
    (hnew : (∀ a ∈ left', pos x ≠ pos a) ∨ ∀ b ∈ right', pos y ≠ pos b) :
    CallsAcross pos left right ((y, x) :: calls) := by
  constructor
  · intro call hcall
    rcases List.mem_cons.mp hcall with rfl | hcall
    · exact ⟨hy, hx⟩
    · obtain ⟨hfirst, hsecond⟩ := hcalls.items call hcall
      exact ⟨hright call.1 hfirst, hleft call.2 hsecond⟩
  · refine List.pairwise_cons.mpr ⟨?_, hcalls.once⟩
    intro call hcall hsame
    obtain ⟨hfirst, hsecond⟩ := hcalls.items call hcall
    rcases hnew with hnew | hnew
    · exact hnew call.2 hsecond hsame.2
    · exact hnew call.1 hfirst hsame.1

/-- It does not matter in which order the runs hold their items. -/
theorem CallsAcross.of_perm {left right left' right' : List α} {calls : List (α × α)}
    (hcalls : CallsAcross pos left' right' calls) (hleft : left'.Perm left)
    (hright : right'.Perm right) : CallsAcross pos left right calls := by
  refine ⟨?_, hcalls.once⟩
  intro call hcall
  obtain ⟨hfirst, hsecond⟩ := hcalls.items call hcall
  exact ⟨hright.mem_iff.mp hfirst, hleft.mem_iff.mp hsecond⟩

/-- A merge is done with one of the two items after every call, so it never asks about the same two
    positions again. -/
theorem listMerge_calls_across (oracle : Oracle α) {xs ys : List α}
    (hxs : xs.Pairwise fun a b => pos a ≠ pos b) (hys : ys.Pairwise fun a b => pos a ≠ pos b) :
    AddsCalls (CallsAcross pos xs ys) (listMerge oracle.comparator xs ys) := by
  intro calls
  fun_induction listMerge oracle.comparator xs ys calls with
  | case1 ys calls => exact ⟨[], (List.append_nil _).symm, by simp, .nil⟩
  | case2 x xs calls => exact ⟨[], (List.append_nil _).symm, by simp, .nil⟩
  | case3 x xs y ys calls hless rest ih =>
    obtain ⟨hy, hys'⟩ := List.pairwise_cons.mp hys
    obtain ⟨added, hlog, hadded⟩ := ih hxs hys'
    refine ⟨(y, x) :: added, ?_, ?_⟩
    · rw [hlog]
      simp [Oracle.comparator]
    · exact hadded.cons (fun _ ha => ha) (fun _ hb => List.mem_cons_of_mem y hb)
        List.mem_cons_self List.mem_cons_self (Or.inr hy)
  | case4 x xs y ys calls hless rest ih =>
    obtain ⟨hx, hxs'⟩ := List.pairwise_cons.mp hxs
    obtain ⟨added, hlog, hadded⟩ := ih hxs' hys
    refine ⟨(y, x) :: added, ?_, ?_⟩
    · rw [hlog]
      simp [Oracle.comparator]
    · exact hadded.cons (fun _ ha => List.mem_cons_of_mem x ha) (fun _ hb => hb)
        List.mem_cons_self List.mem_cons_self (Or.inl hx)

/-- The calls inside two halves and those across them make up the calls of the whole. No two of the
    three kinds can meet, since every position of the front half comes before those of the back half. -/
theorem CallsInOrder.join {front back : List α} {a b across : List (α × α)}
    (ha : CallsInOrder pos front a) (hb : CallsInOrder pos back b)
    (hacross : CallsAcross pos front back across)
    (hcut : ∀ x ∈ front, ∀ y ∈ back, pos x < pos y) :
    CallsInOrder pos (front ++ back) (a ++ b ++ across) := by
  refine ⟨?_, ?_, ?_⟩
  · intro call hcall
    rw [List.mem_append, List.mem_append] at hcall
    rw [List.mem_append, List.mem_append]
    rcases hcall with (hcall | hcall) | hcall
    · exact ⟨Or.inl (ha.items call hcall).1, Or.inl (ha.items call hcall).2⟩
    · exact ⟨Or.inr (hb.items call hcall).1, Or.inr (hb.items call hcall).2⟩
    · exact ⟨Or.inr (hacross.items call hcall).1, Or.inl (hacross.items call hcall).2⟩
  · intro call hcall
    rw [List.mem_append, List.mem_append] at hcall
    rcases hcall with (hcall | hcall) | hcall
    · exact ha.later call hcall
    · exact hb.later call hcall
    · exact hcut call.2 (hacross.items call hcall).2 call.1 (hacross.items call hcall).1
  · rw [List.pairwise_append, List.pairwise_append]
    refine ⟨⟨ha.once, hb.once, ?_⟩, hacross.once, ?_⟩
    · intro call hcall call' hcall' hsame
      have hless := hcut call.1 (ha.items call hcall).1 call'.1 (hb.items call' hcall').1
      exact Nat.ne_of_lt hless hsame.1
    · intro call hcall call' hcall' hsame
      obtain ⟨hfirst, hsecond⟩ := hacross.items call' hcall'
      rcases List.mem_append.mp hcall with hcall | hcall
      · exact Nat.ne_of_lt (hcut call.1 (ha.items call hcall).1 call'.1 hfirst) hsame.1
      · exact Nat.ne_of_lt (hcut call'.2 hsecond call.2 (hb.items call hcall).2) hsame.2.symm

/-- The order of the calls does not matter. -/
theorem CallsInOrder.perm {xs : List α} {calls calls' : List (α × α)}
    (hcalls : CallsInOrder pos xs calls) (hperm : calls'.Perm calls) :
    CallsInOrder pos xs calls' := by
  refine ⟨?_, ?_, ?_⟩
  · intro call hcall
    exact hcalls.items call (hperm.mem_iff.mp hcall)
  · intro call hcall
    exact hcalls.later call (hperm.mem_iff.mp hcall)
  · refine hperm.symm.pairwise hcalls.once ?_
    intro call call' hdifferent hsame
    exact hdifferent ⟨hsame.1.symm, hsame.2.symm⟩

/-- A sort of items in the order of their positions asks about each pair of positions at most once, and
    about the later one first. The induction is on the halves: their items have changed places when they
    are merged, but not from one half to the other. -/
theorem listSort_callsInOrder (oracle : Oracle α) (schedule : Schedule) {xs : List α}
    (hxs : xs.Pairwise fun a b => pos a < pos b) :
    AddsCalls (CallsInOrder pos xs) (listSort oracle.comparator schedule xs) := by
  induction xs using halving_induction generalizing schedule with
  | short xs hshort =>
    intro calls
    rw [listSort_of_short _ schedule calls hshort]
    exact ⟨[], (List.append_nil _).symm, by simp, by simp, .nil⟩
  | long xs hlong ihl ihr =>
    intro calls
    obtain ⟨hfront, hback, hcut⟩ := pairwise_cut hxs (xs.length - xs.length / 2)
    obtain ⟨a, b, inside, ha, hb, hinside, hlog⟩ := AddsCalls.inTurn
      (ihl (schedule.inside .left) hfront) (ihr (schedule.inside .right) hback) (schedule []) calls
    obtain ⟨hfrontPerm, hbackPerm⟩ := inTurn_listSort_perm oracle.comparator (schedule [])
      (schedule.inside .left) (schedule.inside .right) (xs.take (xs.length - xs.length / 2))
      (xs.drop (xs.length - xs.length / 2)) calls
    rw [listSort_of_long _ schedule calls hlong]
    generalize inTurn (schedule []) _ _ calls = halves at hlog hfrontPerm hbackPerm ⊢
    -- The halves have been sorted, but their positions are still distinct.
    have hdistinct : ∀ {ys ys' : List α}, ys'.Perm ys → (ys.Pairwise fun a b => pos a < pos b) →
        ys'.Pairwise fun a b => pos a ≠ pos b := by
      intro ys ys' hperm hys
      exact hperm.symm.pairwise (hys.imp Nat.ne_of_lt) Ne.symm
    obtain ⟨across, hlog', hacross⟩ := listMerge_calls_across oracle
      (hdistinct hfrontPerm hfront) (hdistinct hbackPerm hback) halves.2.2
    refine ⟨inside ++ across, ?_, ?_⟩
    · rw [← List.append_assoc, ← hlog]
      exact hlog'
    · have hall := ha.join hb (hacross.of_perm hfrontPerm hbackPerm) hcut
      rw [List.take_append_drop] at hall
      exact hall.perm (hinside.append_right across)

end

/-! ## Items with their positions -/

/-- Every item with the slot that it stands in. -/
def Workspace.tagged (workspace : Workspace α) : Workspace (α × Nat) :=
  ⟨workspace.values.zipIdx, ⟨workspace.scratch.left.zipIdx, workspace.scratch.right.zipIdx⟩⟩

/-- A call without the positions of its items. -/
def untagCall (call : (α × Nat) × (α × Nat)) : α × α := (call.1.1, call.2.1)

/-- The oracle for items with positions that never looks at a position. -/
def Oracle.blind (oracle : Oracle α) : Oracle (α × Nat) :=
  fun calls a b => oracle (calls.map untagCall) a.1 b.1

/-- Without the positions, the calls of the blind oracle and its answers are those of the oracle. -/
theorem Oracle.blind_mirrors (oracle : Oracle α) :
    oracle.blind.comparator.Mirrors oracle.comparator Prod.fst
      (fun calls => calls.map untagCall) := by
  intro a b calls
  simp [Oracle.comparator, Oracle.blind, untagCall]

theorem segment_map (f : α → β) (values : Array α) (low high : Nat) :
    segment (values.map f) low high = (segment values low high).map f := by
  unfold segment
  rw [← Array.map_extract, Array.toList_map]

theorem AgreesOutside.map {low high : Nat} {old new : Array α} (f : α → β)
    (hagrees : AgreesOutside low high old new) :
    AgreesOutside low high (old.map f) (new.map f) := by
  refine ⟨?_, ?_⟩
  · rw [Array.size_map, Array.size_map, hagrees.size]
  · intro i hi
    rw [Array.getElem?_map, Array.getElem?_map, hagrees.outside i hi]

/-- An item with its position is found in the slot of that name. -/
theorem tag_of_segment {values : Array α} {low high i : Nat} {item : α × Nat}
    (hitem : (segment values.zipIdx low high)[i]? = some item) :
    item.2 = low + i ∧ low + i ≤ high ∧ values[low + i]? = some item.1 := by
  rw [getElem?_segment] at hitem
  by_cases hi : low + i ≤ high
  · rw [if_pos hi, Array.getElem?_zipIdx, Option.map_eq_some_iff] at hitem
    obtain ⟨a, ha, rfl⟩ := hitem
    exact ⟨Nat.zero_add _, hi, ha⟩
  · rw [if_neg hi] at hitem
    exact absurd hitem (by simp)

/-- The positions of a range ascend. -/
theorem segment_zipIdx_ascending (values : Array α) (low high : Nat) :
    (segment values.zipIdx low high).Pairwise fun a b => a.2 < b.2 := by
  rw [List.pairwise_iff_getElem]
  intro i j hi hj hij
  have hfirst := tag_of_segment (List.getElem?_eq_getElem hi)
  have hsecond := tag_of_segment (List.getElem?_eq_getElem hj)
  omega

/-! ## The engines -/

/-- Calls about the positions `low`, …, `high` of the values. -/
structure MeetInOrder (values : Array α) (low high : Nat) (calls : List ((α × Nat) × (α × Nat))) :
    Prop where
  /-- An item is asked about with the position where it stood. -/
  stood : ∀ call ∈ calls, values[call.1.2]? = some call.1.1 ∧ values[call.2.2]? = some call.2.1
  inside : ∀ call ∈ calls, low ≤ call.2.2 ∧ call.1.2 ≤ high
  /-- The first item of a call stood behind the second one. -/
  later : ∀ call ∈ calls, call.2.2 < call.1.2
  /-- No two positions are asked about again. -/
  once : (calls.map fun call => (call.1.2, call.2.2)).Nodup

/-- A sort of a range of items with their positions, under an oracle that may look at both. -/
theorem listSort_meetInOrder (oracle : Oracle (α × Nat)) (schedule : Schedule) (values : Array α)
    (low high : Nat) :
    MeetInOrder values low high
      (listSort oracle.comparator schedule (segment values.zipIdx low high) #[]).2.toList := by
  obtain ⟨calls, hlog, hcalls⟩ :=
    listSort_callsInOrder oracle schedule (segment_zipIdx_ascending values low high) #[]
  have htag : ∀ item ∈ segment values.zipIdx low high,
      values[item.2]? = some item.1 ∧ low ≤ item.2 ∧ item.2 ≤ high := by
    intro item hitem
    obtain ⟨i, hi⟩ := List.mem_iff_getElem?.mp hitem
    obtain ⟨htag, hhigh, hstood⟩ := tag_of_segment hi
    rw [htag]
    exact ⟨hstood, Nat.le_add_right low i, hhigh⟩
  rw [hlog, List.nil_append]
  refine ⟨?_, ?_, hcalls.later, ?_⟩
  · intro call hcall
    obtain ⟨hfirst, hsecond⟩ := hcalls.items call hcall
    exact ⟨(htag call.1 hfirst).1, (htag call.2 hsecond).1⟩
  · intro call hcall
    obtain ⟨hfirst, hsecond⟩ := hcalls.items call hcall
    exact ⟨(htag call.2 hsecond).2.1, (htag call.1 hfirst).2.2⟩
  · rw [List.Nodup, List.pairwise_map]
    refine hcalls.once.imp ?_
    intro call call' hdifferent hsame
    exact hdifferent (Prod.mk.inj hsame)

/-- Calls on mirrored workspaces with mirrored comparators leave mirrored values and memories. -/
theorem Performs.mirrored {compare : Comparator σ α} {compare' : Comparator τ β} {f : α → β}
    {g : σ → τ} (hmirrors : compare.Mirrors compare' f g) {schedule : Schedule} {low high : Nat}
    {workspace : Workspace α} {workspace' : Workspace β} {memory : σ} {memory' : τ}
    {outcome : Outcome σ α} {outcome' : Outcome τ β}
    (hworkspace : workspace'.values = workspace.values.map f) (hmemory : memory' = g memory)
    (hdone : Performs low high workspace
      (listSort compare schedule (segment workspace.values low high) memory) outcome)
    (hdone' : Performs low high workspace'
      (listSort compare' schedule (segment workspace'.values low high) memory') outcome') :
    outcome'.workspace.values = outcome.workspace.values.map f ∧
      outcome'.memory = g outcome.memory := by
  subst hmemory
  have hsorted := listSort_map hmirrors schedule (segment workspace.values low high) memory
  rw [← segment_map, ← hworkspace] at hsorted
  have houtside' := hdone'.outside
  rw [hworkspace] at houtside'
  constructor
  · refine houtside'.eq_of_segment (hdone.outside.map f) ?_
    rw [hdone'.range, hsorted, segment_map, hdone.range]
  · rw [hdone'.memory, hsorted, hdone.memory]

/-- Whatever the oracle answers, the calls of a sort meet each pair of positions of its range at most
    once, the later position first. The positions are those that the items have in a second run beside
    the first, which makes the same calls and leaves the same items in the same places.

    The two halves of a fork may get their answers mixed in time. Each mix of answers is also given,
    half by half, by some oracle, so none is left out. -/
theorem calls_meet_positions_once (oracle : Oracle α) (engine : Engine) (schedule : Schedule)
    (workspace : Workspace α) (hfits : workspace.values.size < wordLimit) :
    (∀ low high : Nat, RangeFits workspace low high → ∃ sorted tagged,
      engine.sortRangeBy oracle.comparator schedule low high workspace #[] = .ok sorted ∧
      sorted.verdict = .ok () ∧
      engine.sortRangeBy oracle.blind.comparator schedule low high workspace.tagged #[] =
        .ok tagged ∧
      sorted.workspace.values = tagged.workspace.values.map Prod.fst ∧
      sorted.memory = tagged.memory.map untagCall ∧
      MeetInOrder workspace.values low high tagged.memory.toList) ∧
    ∃ sorted tagged,
      engine.sortBy oracle.comparator schedule workspace.values #[] = .ok sorted ∧
      engine.sortBy oracle.blind.comparator schedule workspace.values.zipIdx #[] = .ok tagged ∧
      sorted.1 = tagged.1.map Prod.fst ∧
      sorted.2 = tagged.2.map untagCall ∧
      MeetInOrder workspace.values 0 (workspace.values.size - 1) tagged.2.toList := by
  have hsize : workspace.values.zipIdx.size = workspace.values.size := Array.size_zipIdx
  have hitems : workspace.values = workspace.values.zipIdx.map Prod.fst := by
    rw [Array.zipIdx_map_fst]
  constructor
  · intro low high hargs
    have hargs' : RangeFits workspace.tagged low high := by
      simp only [RangeFits, Workspace.tagged, Array.size_zipIdx]
      exact hargs
    obtain ⟨sorted, hcall, hsorted⟩ :=
      engine.sortRangeBy_performs oracle.comparator schedule #[] hfits hargs
    obtain ⟨tagged, hcall', htagged⟩ :=
      engine.sortRangeBy_performs oracle.blind.comparator schedule #[] (hsize ▸ hfits) hargs'
    obtain ⟨hvalues, hcalls⟩ :=
      htagged.mirrored oracle.blind_mirrors hitems Array.map_empty.symm hsorted
    refine ⟨sorted, tagged, hcall, hsorted.verdict, hcall', hvalues, hcalls, ?_⟩
    rw [htagged.memory]
    exact listSort_meetInOrder oracle.blind _ workspace.values low high
  · have hcall := engine.sortBy_eq_ok oracle.comparator schedule workspace.values #[] hfits
    have hcall' := engine.sortBy_eq_ok oracle.blind.comparator schedule workspace.values.zipIdx #[]
      (hsize ▸ hfits)
    have hsorted := listSort_map oracle.blind_mirrors
      (engine.schedule schedule workspace.values.size) workspace.values.zipIdx.toList #[]
    rw [← Array.toList_map, ← hitems, Array.map_empty] at hsorted
    rw [hsorted] at hcall
    rw [hsize] at hcall'
    refine ⟨_, _, hcall, hcall', List.map_toArray.symm, rfl, ?_⟩
    have hwhole := toList_eq_segment workspace.values.zipIdx
    rw [hsize] at hwhole
    rw [hwhole]
    exact listSort_meetInOrder oracle.blind _ workspace.values 0 (workspace.values.size - 1)

/-- Answers from a script and items that all look alike, so that only the positions tell them apart. -/
theorem calls_meet_positions_once_alike :
    let workspace : Workspace Nat := ⟨#[4, 4, 4, 4, 4, 4], ⟨#[0, 0], #[0, 0]⟩⟩
    let oracle : Oracle Nat := .script #[.gt, .lt, .eq]
    workspace.values.size < wordLimit ∧
    ∃ sorted tagged,
      Sequential.sortRangeBy oracle.comparator 1 4 workspace #[] = .ok sorted ∧
      Sequential.sortRangeBy oracle.blind.comparator 1 4 workspace.tagged #[] = .ok tagged ∧
      sorted.memory = tagged.memory.map untagCall ∧
      MeetInOrder workspace.values 1 4 tagged.memory.toList := by
  intro workspace oracle
  have hfits : workspace.values.size < wordLimit := by decide
  have hargs : RangeFits workspace 1 4 := fun _ => by decide
  obtain ⟨sorted, tagged, hcall, -, hcall', -, hcalls, hmeet⟩ :=
    (calls_meet_positions_once oracle .sequential .leftFirst workspace hfits).1 1 4 hargs
  exact ⟨hfits, sorted, tagged, hcall, hcall', hcalls, hmeet⟩

end MicroBench

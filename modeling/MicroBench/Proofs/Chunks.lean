import Mathlib.Data.List.Sort
import MicroBench.Pattern.Random

/-! # Patterns that are monotone in parts

  A saw is made by cutting drawn values into chunks and sorting each chunk up or down; an organ is cut
  into two halves of which the first rises and the second falls. The number of chunks and the number of
  directions that are drawn for them come from two different divisions, so that there is a direction for
  every chunk has to be shown. Nothing is asked of the generators: they may draw what they like.

  - `chunkAt` finds a chunk by its number. `getElem?_chunks` says that cutting gives these chunks, and
    `length_chunks_le` that there are no more of them than directions.
  - `chunks_flatten_mapIdx` says that chunks which keep their lengths are found again when the whole
    is cut a second time.
  - `IsSaw` says what a saw is; `sawMixed_isSaw` says that drawing one always succeeds.
  - `saws_and_organs_are_monotone_in_parts` is the result for both patterns.
-/

namespace MicroBench.Pattern

variable {α β : Type}

/-! ## Chunks -/

/-- The chunk with the number `i`: the values from `i * size` on, `size` of them or what is left. -/
def chunkAt (size i : Nat) (values : List α) : List α := (values.drop (i * size)).take size

/-- What is cut off goes behind what was cut off before. -/
theorem toList_chunksOnto (size : Nat) (done : Array (List α)) (values : List α) :
    (chunksOnto size done values).toList =
      done.toList ++ (chunksOnto size #[] values).toList := by
  induction hn : values.length using Nat.strongRecOn generalizing done values with
  | ind n ih =>
    subst hn
    cases values with
    | nil => simp [chunksOnto]
    | cons value rest =>
      have hshorter : (rest.drop size).length < (value :: rest).length := by
        simp only [List.length_drop, List.length_cons]
        omega
      -- Both sides cut off the same chunk, each onto an array of its own.
      rw [chunksOnto, chunksOnto, ih _ hshorter (done.push _) _ rfl, ih _ hshorter (#[].push _) _ rfl]
      simp

theorem chunks_nil (size : Nat) : chunks size ([] : List α) = [] := by
  simp [chunks, chunksOnto]

/-- One chunk is cut off the front, and the rest is cut up. -/
theorem chunks_of_ne_nil {size : Nat} {values : List α} (hsize : 0 < size) (hvalues : values ≠ []) :
    chunks size values = values.take size :: chunks size (values.drop size) := by
  obtain ⟨value, rest, rfl⟩ := List.exists_cons_of_ne_nil hvalues
  obtain ⟨k, rfl⟩ : ∃ k, size = k + 1 := ⟨size - 1, by omega⟩
  unfold chunks
  rw [chunksOnto, toList_chunksOnto]
  simp

/-- Facts about lists that lose a chunk again and again, until nothing is left. -/
theorem chunk_induction {size : Nat} (hsize : 0 < size) {motive : List α → Prop} (nil : motive [])
    (chunk : ∀ values, values ≠ [] → motive (values.drop size) → motive values) (values : List α) :
    motive values := by
  induction hn : values.length using Nat.strongRecOn generalizing values with
  | ind n ih =>
    subst hn
    by_cases hvalues : values = []
    · rw [hvalues]
      exact nil
    · have hpos := List.length_pos_iff.mpr hvalues
      apply chunk values hvalues
      exact ih _ (by rw [List.length_drop]; omega) _ rfl

/-- The chunks are the consecutive parts of the list, as long as there are values. -/
theorem getElem?_chunks {size : Nat} (hsize : 0 < size) (values : List α) (i : Nat) :
    (chunks size values)[i]? =
      if i * size < values.length then some (chunkAt size i values) else none := by
  induction values using chunk_induction hsize generalizing i with
  | nil => simp [chunks_nil]
  | chunk values hvalues ih =>
    rw [chunks_of_ne_nil hsize hvalues]
    cases i with
    | zero =>
      rw [if_pos (by rw [Nat.zero_mul]; exact List.length_pos_iff.mpr hvalues), chunkAt, Nat.zero_mul]
      rfl
    | succ i =>
      -- The chunk was one number earlier before the first one was put in front.
      have hstart : (i + 1) * size = size + i * size := by rw [Nat.succ_mul, Nat.add_comm]
      have hmore : i * size < (values.drop size).length ↔ (i + 1) * size < values.length := by
        rw [List.length_drop, hstart]
        omega
      rw [List.getElem?_cons_succ, ih i, chunkAt, chunkAt, List.drop_drop, ← hstart]
      simp only [hmore]

/-- The division leaves less than one chunk over, so one more than the quotient is enough. -/
theorem length_chunks_le {size : Nat} (hsize : 0 < size) (values : List α) :
    (chunks size values).length ≤ values.length / size + 1 := by
  have hend : values.length < (values.length / size + 1) * size := by
    rw [Nat.mul_comm]
    exact Nat.lt_mul_div_succ values.length hsize
  rw [← List.getElem?_eq_none_iff, getElem?_chunks hsize, if_neg (by omega)]

/-- Chunks that are changed without a change of their lengths are found again when the list that they
    make up is cut. -/
theorem chunks_flatten_mapIdx {size : Nat} (hsize : 0 < size) (f : Nat → List α → List β)
    (hlength : ∀ i chunk, (f i chunk).length = chunk.length) (values : List α) :
    chunks size ((chunks size values).mapIdx f).flatten = (chunks size values).mapIdx f := by
  induction values using chunk_induction hsize generalizing f with
  | nil => simp [chunks_nil]
  | chunk values hvalues ih =>
    have hpos := List.length_pos_iff.mpr hvalues
    have hfirst : (f 0 (values.take size)).length = min size values.length := by
      rw [hlength, List.length_take]
    have hrest := ih (fun i => f (i + 1)) (fun i => hlength (i + 1))
    have hne : f 0 (values.take size) ++
        ((chunks size (values.drop size)).mapIdx fun i => f (i + 1)).flatten ≠ [] := by
      rw [← List.length_pos_iff, List.length_append]
      omega
    rw [chunks_of_ne_nil hsize hvalues, List.mapIdx_cons, List.flatten_cons,
      chunks_of_ne_nil hsize hne]
    by_cases hfull : size ≤ values.length
    · -- The first chunk is full, and so it is when the list is cut again.
      have hlen : (f 0 (values.take size)).length = size := by omega
      rw [List.take_left' hlen, List.drop_left' hlen, hrest]
    · -- The only chunk is shorter than the others would be.
      have hnone : values.drop size = [] := List.drop_of_length_le (by omega)
      rw [hnone, chunks_nil, List.mapIdx_nil, List.flatten_nil, List.append_nil,
        List.take_of_length_le (by omega), List.drop_of_length_le (by omega), chunks_nil]

/-! ## Directions -/

theorem ascend_perm (values : List Int32) : (ascend values).Perm values :=
  List.mergeSort_perm values _

theorem descend_perm (values : List Int32) : (descend values).Perm values :=
  List.mergeSort_perm values _

theorem ascend_ascending (values : List Int32) : (ascend values).Pairwise (· ≤ ·) :=
  List.pairwise_mergeSort' (· ≤ ·) values

theorem descend_descending (values : List Int32) : (descend values).Pairwise (· ≥ ·) :=
  List.pairwise_mergeSort' (· ≥ ·) values

theorem direct_perm (direction : Option Int32) (chunk : List Int32) :
    (direct direction chunk).Perm chunk := by
  unfold direct
  split
  · exact ascend_perm chunk
  · exact descend_perm chunk
  · exact .refl chunk

/-- Between zero and one, an integer is the last bit of its word. -/
theorem randomUniform_eq_bits (draws : Draws) (len : Nat) :
    randomUniform draws (.closed 0 1) len =
      some ((List.range len).map fun i => Int32.ofInt (0 + ((draws i).toNat : Int) % 2)) := by
  have hspan : IntegerRange.span (.closed 0 1) = 2 := by decide
  unfold randomUniform
  rw [hspan, if_neg (by decide)]
  rfl

/-- The integers from zero to one are zeros and ones, as many as were asked for. -/
theorem randomUniform_bits (draws : Draws) (len : Nat) :
    ∃ bits, randomUniform draws (.closed 0 1) len = some bits ∧ bits.length = len ∧
      ∀ bit ∈ bits, bit = 0 ∨ bit = 1 := by
  refine ⟨_, randomUniform_eq_bits draws len, ?_, ?_⟩
  · rw [List.length_map, List.length_range]
  · intro bit hbit
    obtain ⟨i, -, rfl⟩ := List.mem_map.mp hbit
    have hcases : ((draws i).toNat : Int) % 2 = 0 ∨ ((draws i).toNat : Int) % 2 = 1 := by omega
    rcases hcases with heven | hodd
    · rw [heven]
      exact Or.inl rfl
    · rw [hodd]
      exact Or.inr rfl

/-- A chunk whose direction is zero rises, one whose direction is one falls. -/
theorem direct_monotone {direction : Int32} (hbit : direction = 0 ∨ direction = 1)
    (chunk : List Int32) :
    direction = 0 ∧ (direct (some direction) chunk).Pairwise (· ≤ ·) ∨
      direction = 1 ∧ (direct (some direction) chunk).Pairwise (· ≥ ·) := by
  rcases hbit with rfl | rfl
  · exact Or.inl ⟨rfl, ascend_ascending chunk⟩
  · exact Or.inr ⟨rfl, descend_descending chunk⟩

/-! ## Saws -/

/-- The values are the drawn ones, rearranged inside the chunks: there is a direction for every chunk,
    and every chunk holds what was drawn for it, rising or falling as its direction says. -/
structure IsSaw (size : Nat) (directions drawn saw : List Int32) : Prop where
  length : saw.length = drawn.length
  directed : (chunks size drawn).length ≤ directions.length
  chunk : ∀ i, i * size < drawn.length → ∃ direction, directions[i]? = some direction ∧
    (chunkAt size i saw).Perm (chunkAt size i drawn) ∧
    (direction = 0 ∧ (chunkAt size i saw).Pairwise (· ≤ ·) ∨
      direction = 1 ∧ (chunkAt size i saw).Pairwise (· ≥ ·))

theorem flatten_chunks {size : Nat} (hsize : 0 < size) (values : List α) :
    (chunks size values).flatten = values := by
  induction values using chunk_induction hsize with
  | nil => simp [chunks_nil]
  | chunk values hvalues ih =>
    rw [chunks_of_ne_nil hsize hvalues, List.flatten_cons, ih, List.take_append_drop]

theorem length_flatten_mapIdx (f : Nat → List α → List β)
    (hlength : ∀ i part, (f i part).length = part.length) (parts : List (List α)) :
    (parts.mapIdx f).flatten.length = parts.flatten.length := by
  induction parts generalizing f with
  | nil => rfl
  | cons part parts ih =>
    rw [List.mapIdx_cons, List.flatten_cons, List.flatten_cons, List.length_append,
      List.length_append, hlength, ih _ fun i => hlength (i + 1)]

/-- Chunks with enough directions of zeros and ones make up a saw. -/
theorem sawOf_isSaw {size : Nat} {directions drawn : List Int32} (hsize : 0 < size)
    (hbits : ∀ direction ∈ directions, direction = 0 ∨ direction = 1)
    (henough : (chunks size drawn).length ≤ directions.length) :
    ∃ saw, sawOf size directions.toArray drawn = some saw ∧ IsSaw size directions drawn saw := by
  have hlength : ∀ (i : Nat) (chunk : List Int32),
      (direct directions.toArray[i]? chunk).length = chunk.length := by
    intro i chunk
    exact (direct_perm _ chunk).length_eq
  have hsaw := chunks_flatten_mapIdx hsize _ hlength drawn
  have hsawLength := length_flatten_mapIdx _ hlength (chunks size drawn)
  rw [flatten_chunks hsize] at hsawLength
  refine ⟨_, if_neg (by omega), hsawLength, henough, ?_⟩
  intro i hi
  generalize ((chunks size drawn).mapIdx _).flatten = saw at hsaw hsawLength
  -- Both sides are cut in the same places, and there is a chunk with this number.
  have hdrawn := getElem?_chunks hsize drawn i
  have hchunk := getElem?_chunks hsize saw i
  rw [if_pos hi] at hdrawn
  rw [hsawLength, if_pos hi, hsaw, List.getElem?_mapIdx, hdrawn, Option.map_some,
    Option.some_inj] at hchunk
  have hnumber : i < directions.length :=
    Nat.lt_of_lt_of_le (List.getElem?_eq_some_iff.mp hdrawn).1 henough
  have hdirection : directions.toArray[i]? = some directions[i] := by simp [hnumber]
  rw [hdirection] at hchunk
  rw [← hchunk]
  exact ⟨directions[i], List.getElem?_eq_getElem hnumber, direct_perm _ _,
    direct_monotone (hbits _ (List.getElem_mem hnumber)) _⟩

theorem quotient_of_pos (a : Nat) {b : Nat} (hb : 0 < b) : quotient a b = some (a / b) :=
  if_neg (by omega)

theorem length_random (draws : Draws) (len : Nat) : (random draws len).length = len := by
  simp [random]

/-- A saw of any length and with any number of teeth can be drawn: no divisor is zero, and neither is
    the size of a chunk. -/
theorem sawMixed_isSaw (draws directionDraws : Draws) (len saws : Nat) :
    let size := max (len / max saws 1) 1
    ∃ saw directions, sawMixed draws directionDraws len saws = some saw ∧
      randomUniform directionDraws (.closed 0 1) (len / size + 1) = some directions ∧
      IsSaw size directions (random draws len) saw := by
  intro size
  have hteeth : 0 < max saws 1 := Nat.lt_of_lt_of_le Nat.zero_lt_one (Nat.le_max_right saws 1)
  have hsize : 0 < size := Nat.lt_of_lt_of_le Nat.zero_lt_one (Nat.le_max_right _ 1)
  have hchunk : sawChunk len saws = some size := by
    rw [sawChunk, quotient_of_pos len hteeth]
    rfl
  obtain ⟨directions, hdirections, hcount, hbits⟩ :=
    randomUniform_bits directionDraws (len / size + 1)
  have henough := length_chunks_le hsize (random draws len)
  rw [length_random, ← hcount] at henough
  by_cases hempty : len = 0
  · -- Nothing is drawn, and there is no chunk to put into a direction.
    subst hempty
    refine ⟨[], directions, rfl, hdirections, rfl, henough, ?_⟩
    intro i hi
    exact absurd hi (Nat.not_lt_zero _)
  · obtain ⟨saw, hsaw, hisSaw⟩ := sawOf_isSaw hsize hbits henough
    refine ⟨saw, directions, ?_, hdirections, hisSaw⟩
    unfold sawMixed
    simp only [if_neg hempty, hchunk, quotient_of_pos len hsize, hdirections, hsaw, Option.bind_eq_bind,
      Option.bind_some]

/-! ## Organs -/

theorem organOf_perm (values : List Int32) : (organOf values).Perm values := by
  have hhalves := (ascend_perm (values.take (values.length / 2))).append
    (descend_perm (values.drop (values.length / 2)))
  rw [List.take_append_drop] at hhalves
  exact hhalves

/-- The front half of an organ is cut off where the front half of its values was. -/
theorem organOf_halves (values : List Int32) :
    (organOf values).take (values.length / 2) = ascend (values.take (values.length / 2)) ∧
      (organOf values).drop (values.length / 2) = descend (values.drop (values.length / 2)) := by
  have hfront : (ascend (values.take (values.length / 2))).length = values.length / 2 := by
    rw [(ascend_perm _).length_eq, List.length_take]
    omega
  exact ⟨List.take_left' hfront, List.drop_left' hfront⟩

/-! ## Every outcome of a generator -/

/-- If every value of a list can be read off some word, the whole list can be read off some draws. -/
theorem exists_draws (item : UInt64 → Int32) {values : List Int32}
    (hwords : ∀ value ∈ values, ∃ word, item word = value) :
    ∃ draws : Draws, ((List.range values.length).map fun i => item (draws i)) = values := by
  choose! word hword using hwords
  refine ⟨fun i => word (values.getD i 0), ?_⟩
  apply List.ext_getElem
  · simp
  · intro i _ hi
    simp [hi, hword _ (List.getElem_mem hi)]

/-- Every list of integers is drawn by some generator: an integer is the upper half of a word. -/
theorem exists_draws_random (values : List Int32) :
    ∃ draws, random draws values.length = values := by
  apply exists_draws fun word => (word >>> 32).toUInt32.toInt32
  intro value _
  refine ⟨value.toUInt32.toUInt64 <<< 32, ?_⟩
  have hhalf : (value.toUInt32.toUInt64 <<< 32 >>> 32).toUInt32 = value.toUInt32 := by
    have hbound := value.toUInt32.toNat_lt
    apply UInt32.toNat.inj
    simp only [UInt64.toNat_toUInt32, UInt64.toNat_shiftRight, UInt64.toNat_shiftLeft,
      UInt32.toNat_toUInt64, UInt64.reduceToNat, Nat.reduceMod, Nat.shiftLeft_eq, Nat.reducePow,
      Nat.shiftRight_eq_div_pow]
    omega
  rw [hhalf]
  exact value.toInt32_toUInt32

/-- Every list of zeros and ones is drawn by some generator. -/
theorem exists_draws_bits {bits : List Int32} (hbits : ∀ bit ∈ bits, bit = 0 ∨ bit = 1) :
    ∃ draws, randomUniform draws (.closed 0 1) bits.length = some bits := by
  have hwords : ∀ bit ∈ bits, ∃ word : UInt64, Int32.ofInt (0 + (word.toNat : Int) % 2) = bit := by
    intro bit hbit
    rcases hbits bit hbit with rfl | rfl
    · exact ⟨0, rfl⟩
    · exact ⟨1, rfl⟩
  obtain ⟨draws, hdraws⟩ := exists_draws _ hwords
  exact ⟨draws, by rw [randomUniform_eq_bits, hdraws]⟩

/-! ## Both patterns -/

/-- Whatever values and directions are drawn, and however many teeth are asked for, none included: a
    saw is drawn without a division by zero, each of its chunks holds the values that were drawn for it
    and rises or falls, and there is a direction for each chunk. An organ holds the values that were
    drawn; its front half rises and the rest falls. No list of values and no list of zeros and ones is
    beyond the generators. -/
theorem saws_and_organs_are_monotone_in_parts :
    (∀ (draws directionDraws : Draws) (len saws : Nat),
      let drawn := random draws len
      let size := max (len / max saws 1) 1
      let organ := pipeOrgan draws len
      (∃ saw directions, sawMixed draws directionDraws len saws = some saw ∧ saw.length = len ∧
        randomUniform directionDraws (.closed 0 1) (len / size + 1) = some directions ∧
        IsSaw size directions drawn saw) ∧
      organ.Perm drawn ∧ (organ.take (len / 2)).Pairwise (· ≤ ·) ∧
        (organ.drop (len / 2)).Pairwise (· ≥ ·)) ∧
    ∀ values directions : List Int32, (∀ bit ∈ directions, bit = 0 ∨ bit = 1) →
      ∃ draws directionDraws, random draws values.length = values ∧
        randomUniform directionDraws (.closed 0 1) directions.length = some directions := by
  constructor
  · intro draws directionDraws len saws drawn size organ
    have hlen : drawn.length = len := length_random draws len
    obtain ⟨saw, directions, hsaw, hdirections, hisSaw⟩ :=
      sawMixed_isSaw draws directionDraws len saws
    obtain ⟨hfront, hback⟩ := organOf_halves drawn
    rw [hlen] at hfront hback
    refine ⟨⟨saw, directions, hsaw, hisSaw.length.trans hlen, hdirections, hisSaw⟩,
      organOf_perm drawn, ?_, ?_⟩
    · show (List.take (len / 2) (organOf drawn)).Pairwise (· ≤ ·)
      rw [hfront]
      exact ascend_ascending _
    · show (List.drop (len / 2) (organOf drawn)).Pairwise (· ≥ ·)
      rw [hback]
      exact descend_descending _
  · intro values directions hbits
    obtain ⟨draws, hdraws⟩ := exists_draws_random values
    obtain ⟨directionDraws, hdirectionDraws⟩ := exists_draws_bits hbits
    exact ⟨draws, directionDraws, hdraws, hdirectionDraws⟩

/-- Seven values in chunks of two, with a tie and with one value left over, so that all four directions
    are used. Without teeth there is one chunk of all values. -/
theorem saws_and_organs_are_monotone_in_parts_seven :
    let values : List Int32 := [5, -3, 8, 8, 0, 2, -7]
    let directions : List Int32 := [1, 0, 0, 1]
    (∀ bit ∈ directions, bit = 0 ∨ bit = 1) ∧ (chunks 2 values).length = directions.length ∧
    ∃ draws directionDraws saw saw' directions',
      sawMixed draws directionDraws 7 3 = some saw ∧ IsSaw 2 directions values saw ∧
      sawMixed draws directionDraws 7 0 = some saw' ∧ IsSaw 7 directions' values saw' ∧
      (pipeOrgan draws 7).Perm values := by
  intro values directions
  have hbits : ∀ bit ∈ directions, bit = 0 ∨ bit = 1 := by simp [directions]
  have hcount : (chunks 2 values).length = directions.length := by
    simp [values, directions, chunks, chunksOnto]
  obtain ⟨hpatterns, houtcomes⟩ := saws_and_organs_are_monotone_in_parts
  obtain ⟨draws, directionDraws, hvalues, hdirections⟩ := houtcomes values directions hbits
  have hdrawn : random draws 7 = values := hvalues
  obtain ⟨⟨saw, drawnDirections, hsaw, -, hagain, hisSaw⟩, horgan, -, -⟩ :=
    hpatterns draws directionDraws 7 3
  obtain ⟨⟨saw', directions', hsaw', -, -, hisSaw'⟩, -⟩ := hpatterns draws directionDraws 7 0
  have hsame : drawnDirections = directions := Option.some_inj.mp (hagain.symm.trans hdirections)
  rw [hdrawn] at hisSaw hisSaw' horgan
  rw [hsame] at hisSaw
  exact ⟨hbits, hcount, draws, directionDraws, saw, saw', directions', hsaw, hisSaw, hsaw', hisSaw',
    horgan⟩

end MicroBench.Pattern

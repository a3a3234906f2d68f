import Mathlib.Algebra.Group.Nat.Defs
import MicroBench.Bytes

/-! # Integers and their bytes

  The bytes of an integer in two's complement are its digits to the base 256, the lowest first. A
  negative integer has digits like any other: each digit is a remainder, and what is left to be written
  is the quotient, rounded down. Reading four bytes undoes this, and so does writing what was read, so
  the integers of 32 bits and the strings of four bytes stand for each other one to one.

  - `lowBytes` writes an integer of any size down to its lowest bytes, and `encodeIntegers` a list of
    integers of 32 bits.
  - `integerOfBytes_toInt_emod` says what four bytes stand for. The two directions of a single integer,
    `integerOfBytes_of_lowBytes` and `lowBytes_integerOfBytes`, follow by arithmetic.
  - `decodeOnto_encode` and `encode_decodeOnto` are the runs of the reading loop in the two directions.
  - `integers_round_trip_through_bytes` is the result.
-/

namespace MicroBench

/-! ## Writing -/

/-- The lowest `width` bytes of an integer in two's complement, the lowest first. -/
def lowBytes : (width : Nat) → Int → List UInt8
  | 0, _ => []
  | width + 1, x => UInt8.ofInt x :: lowBytes width (x / 256)

/-- The bytes of all integers of a list, four for each. -/
def encodeIntegers (xs : List Int32) : List UInt8 := xs.flatMap fun x => lowBytes 4 x.toInt

theorem toNat_byte_ofInt (x : Int) : ((UInt8.ofInt x).toNat : Int) = x % 256 := by
  rw [UInt8.ofInt, UInt8.toNat_ofNat']
  omega

theorem length_encodeIntegers (xs : List Int32) : (encodeIntegers xs).length = 4 * xs.length := by
  induction xs with
  | nil => rfl
  | cons x xs ih =>
    show (lowBytes 4 x.toInt ++ encodeIntegers xs).length = 4 * (xs.length + 1)
    rw [List.length_append, ih]
    show 4 + 4 * xs.length = 4 * (xs.length + 1)
    omega

/-! ## One integer -/

/-- A byte that is shifted past all bits of a word is added to it. -/
theorem toNat_or_shifted_byte {low shift : UInt32} (byte : UInt8)
    (hlow : low.toNat < 2 ^ shift.toNat) (hshift : shift.toNat ≤ 24) :
    (low ||| byte.toUInt32 <<< shift).toNat = low.toNat + byte.toNat * 2 ^ shift.toNat := by
  -- The byte has eight bits, so none of them is shifted out of the word.
  have hfits : byte.toNat <<< shift.toNat < 2 ^ 32 := by
    calc byte.toNat <<< shift.toNat = byte.toNat * 2 ^ shift.toNat := Nat.shiftLeft_eq _ _
      _ < 2 ^ 8 * 2 ^ shift.toNat := Nat.mul_lt_mul_of_pos_right byte.toNat_lt (Nat.two_pow_pos _)
      _ = 2 ^ (8 + shift.toNat) := (Nat.pow_add 2 8 _).symm
      _ ≤ 2 ^ 32 := Nat.pow_le_pow_right (by decide) (by omega)
  rw [UInt32.toNat_or, UInt32.toNat_shiftLeft, UInt8.toNat_toUInt32,
    Nat.mod_eq_of_lt (show shift.toNat < 32 by omega), Nat.mod_eq_of_lt hfits, Nat.or_comm,
    ← Nat.shiftLeft_add_eq_or_of_lt hlow, Nat.shiftLeft_eq, Nat.add_comm]

/-- The word that four bytes are joined to, byte by byte from the lowest. -/
theorem toNat_joined_bytes (b₀ b₁ b₂ b₃ : UInt8) :
    (b₀.toUInt32 ||| b₁.toUInt32 <<< 8 ||| b₂.toUInt32 <<< 16 ||| b₃.toUInt32 <<< 24).toNat =
      b₀.toNat + b₁.toNat * 2 ^ 8 + b₂.toNat * 2 ^ 16 + b₃.toNat * 2 ^ 24 := by
  have hb₀ := b₀.toNat_lt
  have hb₁ := b₁.toNat_lt
  have hb₂ := b₂.toNat_lt
  have h₀ : b₀.toUInt32.toNat = b₀.toNat := UInt8.toNat_toUInt32 b₀
  have h₁ : (b₀.toUInt32 ||| b₁.toUInt32 <<< 8).toNat = b₀.toNat + b₁.toNat * 2 ^ 8 := by
    rw [← h₀]
    apply toNat_or_shifted_byte b₁ _ (by decide)
    rw [h₀]
    exact hb₀
  have h₂ : (b₀.toUInt32 ||| b₁.toUInt32 <<< 8 ||| b₂.toUInt32 <<< 16).toNat =
      b₀.toNat + b₁.toNat * 2 ^ 8 + b₂.toNat * 2 ^ 16 := by
    rw [← h₁]
    apply toNat_or_shifted_byte b₂ _ (by decide)
    show (b₀.toUInt32 ||| b₁.toUInt32 <<< 8).toNat < 2 ^ 16
    omega
  rw [← h₂]
  apply toNat_or_shifted_byte b₃ _ (by decide)
  show (b₀.toUInt32 ||| b₁.toUInt32 <<< 8 ||| b₂.toUInt32 <<< 16).toNat < 2 ^ 24
  omega

/-- Four bytes are the digits of their integer, up to a multiple of `2 ^ 32`. -/
theorem integerOfBytes_toInt_emod (b₀ b₁ b₂ b₃ : UInt8) :
    (integerOfBytes b₀ b₁ b₂ b₃).toInt % 4294967296 =
      b₀.toNat + 256 * b₁.toNat + 65536 * b₂.toNat + 16777216 * b₃.toNat := by
  have hb₀ := b₀.toNat_lt
  have hb₁ := b₁.toNat_lt
  have hb₂ := b₂.toNat_lt
  have hb₃ := b₃.toNat_lt
  unfold integerOfBytes
  rw [← Int32.toInt_toBitVec, UInt32.toBitVec_toInt32, BitVec.toInt_eq_toNat_bmod,
    UInt32.toNat_toBitVec, toNat_joined_bytes]
  show Int.bmod _ 4294967296 % (4294967296 : Nat) = _
  rw [Int.bmod_emod]
  omega

/-- The bytes that an integer is written with are read as this integer. -/
theorem integerOfBytes_of_lowBytes {x : Int32} {b₀ b₁ b₂ b₃ : UInt8}
    (hbytes : lowBytes 4 x.toInt = [b₀, b₁, b₂, b₃]) : integerOfBytes b₀ b₁ b₂ b₃ = x := by
  simp only [lowBytes, List.cons.injEq, and_true] at hbytes
  obtain ⟨rfl, rfl, rfl, rfl⟩ := hbytes
  have hmod := integerOfBytes_toInt_emod (.ofInt x.toInt) (.ofInt (x.toInt / 256))
    (.ofInt (x.toInt / 256 / 256)) (.ofInt (x.toInt / 256 / 256 / 256))
  simp only [toNat_byte_ofInt] at hmod
  rw [← Int32.toInt_inj]
  generalize integerOfBytes _ _ _ _ = y at *
  -- Two integers of 32 bits that differ by a multiple of `2 ^ 32` are the same.
  have hx := And.intro x.le_toInt x.toInt_lt
  have hy := And.intro y.le_toInt y.toInt_lt
  omega

/-- The integer that four bytes are read as is written with these bytes. -/
theorem lowBytes_integerOfBytes (b₀ b₁ b₂ b₃ : UInt8) :
    lowBytes 4 (integerOfBytes b₀ b₁ b₂ b₃).toInt = [b₀, b₁, b₂, b₃] := by
  have hb₀ := b₀.toNat_lt
  have hb₁ := b₁.toNat_lt
  have hb₂ := b₂.toNat_lt
  have hb₃ := b₃.toNat_lt
  have hmod := integerOfBytes_toInt_emod b₀ b₁ b₂ b₃
  generalize (integerOfBytes b₀ b₁ b₂ b₃).toInt = x at *
  simp only [lowBytes, List.cons.injEq, and_true, ← UInt8.toNat_inj, ← Int.ofNat_inj,
    toNat_byte_ofInt]
  omega

/-! ## Many integers -/

/-- Fewer than four bytes make no integer. -/
theorem decodeOnto_of_short (done : Array Int32) {bytes : List UInt8} (hshort : bytes.length ≤ 3) :
    decodeOnto done bytes = done := by
  match bytes, hshort with
  | [], _ => rfl
  | [_], _ => rfl
  | [_, _], _ => rfl
  | [_, _, _], _ => rfl

/-- The loop reads one integer after the other off its bytes and leaves out what follows the last. -/
theorem decodeOnto_encode (done : Array Int32) (xs : List Int32) {tail : List UInt8}
    (htail : tail.length ≤ 3) :
    decodeOnto done (encodeIntegers xs ++ tail) = done ++ xs.toArray := by
  induction xs generalizing done with
  | nil =>
    show decodeOnto done tail = done ++ #[]
    rw [decodeOnto_of_short done htail, Array.append_empty]
  | cons x xs ih =>
    have hx := integerOfBytes_of_lowBytes (rfl : lowBytes 4 x.toInt = _)
    show decodeOnto (done.push (integerOfBytes _ _ _ _)) (encodeIntegers xs ++ tail) = _
    rw [hx, ih (done.push x), List.push_append_toArray]

/-- Written again, what the loop has read are the bytes that it went through, in fours. -/
theorem encode_decodeOnto (done : Array Int32) (bytes : List UInt8) :
    encodeIntegers (decodeOnto done bytes).toList =
      encodeIntegers done.toList ++ bytes.take (4 * (bytes.length / 4)) := by
  fun_induction decodeOnto done bytes with
  | case1 done b₀ b₁ b₂ b₃ rest ih =>
    have hfours : 4 * ((b₀ :: b₁ :: b₂ :: b₃ :: rest).length / 4) = 4 * (rest.length / 4) + 4 := by
      simp only [List.length_cons]
      omega
    rw [ih, hfours, Array.toList_push]
    simp [encodeIntegers, lowBytes_integerOfBytes]
  | case2 bytes done hstop =>
    have hshort : bytes.length < 4 := by
      match bytes, hstop with
      | [], _ => simp
      | [_], _ => simp
      | [_, _], _ => simp
      | [_, _, _], _ => simp
      | b₀ :: b₁ :: b₂ :: b₃ :: rest, hstop => exact absurd rfl (hstop b₀ b₁ b₂ b₃ rest)
    rw [Nat.div_eq_of_lt hshort, Nat.mul_zero, List.take_zero, List.append_nil]

/-- The bytes of the integers read are the bytes given, up to the last four that belong together. -/
theorem encode_decodeIntegers (bytes : List UInt8) :
    encodeIntegers (decodeIntegers bytes) = bytes.take (4 * (bytes.length / 4)) :=
  encode_decodeOnto #[] bytes

theorem length_decodeIntegers (bytes : List UInt8) :
    (decodeIntegers bytes).length = bytes.length / 4 := by
  have hlen := congrArg List.length (encode_decodeIntegers bytes)
  rw [length_encodeIntegers, List.length_take] at hlen
  omega

/-- Integers can be read back from their bytes, whatever up to three bytes follow; and any bytes, but for
    up to three at the end, are the bytes of the integers read from them. -/
theorem integers_round_trip_through_bytes :
    (∀ (xs : List Int32) (tail : List UInt8), tail.length ≤ 3 →
      decodeIntegers (encodeIntegers xs ++ tail) = xs) ∧
    ∀ bytes : List UInt8,
      encodeIntegers (decodeIntegers bytes) = bytes.take (4 * (bytes.length / 4)) := by
  constructor
  · intro xs tail htail
    unfold decodeIntegers
    rw [decodeOnto_encode #[] xs htail, Array.empty_append]
  · exact encode_decodeIntegers

/-- Integers of both signs, the two extremes among them, with three bytes left over. -/
theorem integers_round_trip_through_bytes_extremes :
    let bytes : List UInt8 := [254, 255, 255, 255, 255, 255, 255, 127, 0, 0, 0, 128, 4, 3, 2, 1]
    let tail : List UInt8 := [255, 0, 128]
    encodeIntegers [-2, 2147483647, -2147483648, 16909060] = bytes ∧ tail.length ≤ 3 ∧
    decodeIntegers (bytes ++ tail) = [-2, 2147483647, -2147483648, 16909060] ∧
    encodeIntegers (decodeIntegers (bytes ++ tail)) = bytes := by
  intro bytes tail
  have hbytes : encodeIntegers [-2, 2147483647, -2147483648, 16909060] = bytes := by decide
  have hread := integers_round_trip_through_bytes.1 [-2, 2147483647, -2147483648, 16909060] tail
    (by decide)
  have hfours : (bytes ++ tail).take (4 * ((bytes ++ tail).length / 4)) = bytes := by decide
  have hwritten := integers_round_trip_through_bytes.2 (bytes ++ tail)
  rw [hbytes] at hread
  exact ⟨hbytes, by decide, hread, hwritten.trans hfours⟩

end MicroBench

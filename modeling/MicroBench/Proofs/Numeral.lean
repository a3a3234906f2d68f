import MicroBench.Text.Numeral

/-! # Which texts are integers

  An integer is an optional sign and one or more digits, with as many zeros in front as one likes. Reading
  one is a loop that gives up as soon as the number read so far leaves the range of its word. Digits that
  follow can only make the number larger, so the loop gives up exactly on the numbers that are out of
  range.

  - `Spells`, `Unsigned` and `Signed` say which texts denote which numbers, whatever their size.
  - `readDigits_eq_ok_iff` is about the loop.
  - `readUnsigned_eq_ok_iff` and `readSigned_eq_ok_iff` say that a number is read if and only if it is
    denoted and in range.
  - `spells_toString`: the decimal text of a number denotes it.
-/

namespace MicroBench

/-- A sequence of two computations succeeds if both do. -/
theorem bind_eq_ok_iff {ε α β : Type} {first : Except ε α} {second : α → Except ε β} {b : β} :
    first >>= second = .ok b ↔ ∃ a, first = .ok a ∧ second a = .ok b := by
  cases first with
  | error cause => simp [bind, Except.bind]
  | ok a => simp [bind, Except.bind]

namespace Text

/-! ## Integers in writing -/

/-- One or more of the digits `0` to `9`. -/
def AreDigits (chars : List Char) : Prop := chars ≠ [] ∧ ∀ c ∈ chars, c.isDigit = true

/-- The text is the given sign, followed by digits that denote the number to base ten. -/
def Spells (sign : List Char) (text : String) (n : Nat) : Prop :=
  ∃ digits, text.toList = sign ++ digits ∧ AreDigits digits ∧ n = Nat.ofDigitChars 10 digits 0

/-- The text denotes a number and may have a plus sign. -/
inductive Unsigned (text : String) (n : Nat) : Prop
  | bare (hspells : Spells [] text n)
  | plus (hspells : Spells ['+'] text n)

/-- The text denotes an integer and may have a plus or a minus sign. -/
inductive Signed (text : String) : Int → Prop
  | unsigned {n : Nat} (hunsigned : Unsigned text n) : Signed text n
  | minus {n : Nat} (hspells : Spells ['-'] text n) : Signed text (-n)

/-- The decimal text of a number denotes it. -/
theorem spells_toString (n : Nat) : Spells [] (toString n) n := by
  refine ⟨Nat.toDigits 10 n, ?_, ⟨Nat.toDigits_ne_nil, ?_⟩, Nat.ofDigitChars_ten_toDigits.symm⟩
  · exact Nat.toList_repr
  · intro c hc
    exact Nat.isDigit_of_mem_toDigits (by decide) (by decide) hc

/-! ## Digits -/

theorem digitValue?_eq (c : Char) :
    digitValue? c = if c.isDigit = true then some (c.toNat - '0'.toNat) else none := by
  simp [digitValue?, Char.isDigit, Char.le_def]

/-- Digits that follow do not make a number smaller. -/
theorem le_ofDigitChars (digits : List Char) (number : Nat) :
    number ≤ Nat.ofDigitChars 10 digits number := by
  induction digits generalizing number with
  | nil => exact Nat.le_refl number
  | cons c digits ih =>
    rw [Nat.ofDigitChars_cons]
    have hnext := ih (10 * number + (c.toNat - '0'.toNat))
    omega

/-- A round of the loop that meets a digit. -/
theorem readDigits_digit (limit : Nat) (excess : NumeralError) (number : Nat) {c : Char}
    (hc : c.isDigit = true) (rest : List Char) :
    readDigits limit excess number (c :: rest) =
      if limit < number * 10 + (c.toNat - '0'.toNat) then .error excess
      else readDigits limit excess (number * 10 + (c.toNat - '0'.toNat)) rest := by
  rw [readDigits, digitValue?_eq, if_pos hc]

/-- A round of the loop that meets anything else. -/
theorem readDigits_other (limit : Nat) (excess : NumeralError) (number : Nat) {c : Char}
    (hc : ¬ c.isDigit = true) (rest : List Char) :
    readDigits limit excess number (c :: rest) = .error .invalidDigit := by
  rw [readDigits, digitValue?_eq, if_neg hc]

/-- The loop ends with the number that all digits denote, unless that is too large. -/
theorem readDigits_eq_ok_iff {limit number : Nat} (hnumber : number ≤ limit) (excess : NumeralError)
    (digits : List Char) (n : Nat) :
    readDigits limit excess number digits = .ok n ↔
      (∀ c ∈ digits, c.isDigit = true) ∧ n = Nat.ofDigitChars 10 digits number ∧ n ≤ limit := by
  induction digits generalizing number with
  | nil =>
    rw [readDigits, Nat.ofDigitChars_nil]
    constructor
    · rintro ⟨⟩
      exact ⟨fun _ hc => absurd hc List.not_mem_nil, rfl, hnumber⟩
    · rintro ⟨-, rfl, -⟩
      rfl
  | cons c digits ih =>
    rw [Nat.ofDigitChars_cons, Nat.mul_comm 10 number, List.forall_mem_cons]
    by_cases hc : c.isDigit = true
    · rw [readDigits_digit limit excess number hc]
      by_cases hlarge : limit < number * 10 + (c.toNat - '0'.toNat)
      · -- The number is too large already, and the digits that follow cannot change that.
        have hgrows := le_ofDigitChars digits (number * 10 + (c.toNat - '0'.toNat))
        rw [if_pos hlarge]
        constructor
        · rintro ⟨⟩
        · rintro ⟨-, rfl, hfits⟩
          omega
      · rw [if_neg hlarge, ih (Nat.le_of_not_lt hlarge)]
        simp only [hc, true_and]
    · rw [readDigits_other limit excess number hc]
      constructor
      · rintro ⟨⟩
      · rintro ⟨⟨hdigit, -⟩, -⟩
        exact absurd hdigit hc

/-- What stands behind a sign is read if it is a number in range. -/
theorem readMagnitude_eq_ok_iff {limit : Nat} (excess : NumeralError) {sign chars : List Char}
    {text : String} (htext : text.toList = sign ++ chars) (n : Nat) :
    readMagnitude limit excess chars = .ok n ↔ Spells sign text n ∧ n ≤ limit := by
  have hspells : Spells sign text n ↔ AreDigits chars ∧ n = Nat.ofDigitChars 10 chars 0 := by
    constructor
    · rintro ⟨digits, hdigits, hare, hn⟩
      obtain rfl : chars = digits := List.append_cancel_left (htext.symm.trans hdigits)
      exact ⟨hare, hn⟩
    · rintro ⟨hare, hn⟩
      exact ⟨chars, htext, hare, hn⟩
  rw [hspells]
  cases chars with
  | nil =>
    constructor
    · rintro ⟨⟩
    · rintro ⟨⟨hare, -⟩, -⟩
      exact absurd rfl hare.1
  | cons c rest =>
    have hread : readMagnitude limit excess (c :: rest) = readDigits limit excess 0 (c :: rest) := rfl
    rw [hread, readDigits_eq_ok_iff (Nat.zero_le limit), AreDigits, and_assoc, and_assoc]
    simp

/-! ## Signs -/

/-- Digits alone have no sign in front of them. -/
theorem not_spells_of_sign {text : String} {sign : Char} {rest : List Char}
    (htext : text.toList = sign :: rest) (hsign : sign.isDigit = false) (n : Nat) :
    ¬ Spells [] text n := by
  rintro ⟨digits, hdigits, hare, -⟩
  obtain rfl : sign :: rest = digits := htext.symm.trans hdigits
  exact absurd (hare.2 sign List.mem_cons_self) (by simp [hsign])

/-- Only a text that starts with a sign spells a number with this sign. -/
theorem not_spells_of_no_sign {text : String} {sign : Char}
    (htext : ∀ rest, text.toList ≠ sign :: rest) (n : Nat) : ¬ Spells [sign] text n := by
  rintro ⟨digits, hdigits, -⟩
  exact htext digits hdigits

/-- A number without sign is read if the text denotes it and it is in range. -/
theorem readUnsigned_eq_ok_iff {limit : Nat} {text : String} {n : Nat} :
    readUnsigned limit text = .ok n ↔ Unsigned text n ∧ n ≤ limit := by
  unfold readUnsigned
  split
  · next hempty =>
    constructor
    · rintro ⟨⟩
    · rintro ⟨⟨digits, hdigits, hare, -⟩ | hplus, -⟩
      · exact absurd (hdigits.symm.trans hempty) hare.1
      · exact absurd hplus (not_spells_of_no_sign (by simp [hempty]) n)
  · next rest hplus =>
    have hsign : text.toList = ['+'] ++ rest := hplus
    rw [readMagnitude_eq_ok_iff .tooLarge hsign]
    apply and_congr_left'
    constructor
    · exact Unsigned.plus
    · rintro (hbare | hspells)
      · exact absurd hbare (not_spells_of_sign hplus (by decide) n)
      · exact hspells
  · next hsome hnoPlus =>
    have hsign : text.toList = [] ++ text.toList := rfl
    rw [readMagnitude_eq_ok_iff .tooLarge hsign]
    apply and_congr_left'
    constructor
    · exact Unsigned.bare
    · rintro (hspells | hplus)
      · exact hspells
      · exact absurd hplus (not_spells_of_no_sign hnoPlus n)

/-- Behind a minus sign stands a number that may be one larger than without it. -/
theorem readSigned_of_minus (limit : Nat) {text : String} {rest : List Char}
    (htext : text.toList = '-' :: rest) :
    readSigned limit text =
      readMagnitude (limit + 1) .tooSmall rest >>= fun n => pure (-(n : Int)) := by
  unfold readSigned
  rw [htext]
  rfl

/-- Without a minus sign it makes no difference whether there could be one. -/
theorem readSigned_of_no_minus (limit : Nat) {text : String}
    (htext : ∀ rest, text.toList ≠ '-' :: rest) :
    readSigned limit text = readUnsigned limit text >>= fun n => pure (n : Int) := by
  unfold readSigned readUnsigned
  split
  · next hempty => rw [hempty]; rfl
  · next rest hplus => rw [hplus]; rfl
  · next rest hminus => exact absurd hminus (htext rest)
  · next hsome hnoPlus _ =>
    split
    · next hempty => exact absurd hempty hsome
    · next rest hplus => exact absurd hplus (hnoPlus rest)
    · rfl

/-- An integer is read if the text denotes it and it is in range. -/
theorem readSigned_eq_ok_iff {limit : Nat} {text : String} {z : Int} :
    readSigned limit text = .ok z ↔ Signed text z ∧ -(limit + 1 : Int) ≤ z ∧ z ≤ limit := by
  by_cases hminus : ∃ rest, text.toList = '-' :: rest
  · obtain ⟨rest, hminus⟩ := hminus
    have hsign : text.toList = ['-'] ++ rest := hminus
    rw [readSigned_of_minus limit hminus, bind_eq_ok_iff]
    constructor
    · rintro ⟨n, hread, ⟨⟩⟩
      obtain ⟨hspells, hfits⟩ := (readMagnitude_eq_ok_iff .tooSmall hsign n).mp hread
      exact ⟨.minus hspells, by omega, by omega⟩
    · rintro ⟨@⟨n, hbare | hplus⟩ | @⟨n, hspells⟩, hleast, -⟩
      · exact absurd hbare (not_spells_of_sign hminus (by decide) n)
      · exact absurd hplus (not_spells_of_no_sign (by simp [hminus]) n)
      · exact ⟨n, (readMagnitude_eq_ok_iff .tooSmall hsign n).mpr ⟨hspells, by omega⟩, rfl⟩
  · have hno : ∀ rest, text.toList ≠ '-' :: rest := fun rest hrest => hminus ⟨rest, hrest⟩
    rw [readSigned_of_no_minus limit hno, bind_eq_ok_iff]
    constructor
    · rintro ⟨n, hread, ⟨⟩⟩
      obtain ⟨hunsigned, hfits⟩ := readUnsigned_eq_ok_iff.mp hread
      exact ⟨.unsigned hunsigned, by omega, by omega⟩
    · rintro ⟨@⟨n, hunsigned⟩ | @⟨n, hspells⟩, -, hgreatest⟩
      · exact ⟨n, readUnsigned_eq_ok_iff.mpr ⟨hunsigned, by omega⟩, rfl⟩
      · exact absurd hspells (not_spells_of_no_sign hno n)

end Text

end MicroBench

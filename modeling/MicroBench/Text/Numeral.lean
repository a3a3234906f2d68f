/-! # Reading integers

  An integer is written as an optional sign and at least one of the digits `0` to `9`. It has to lie
  in the range of the word that it is read into. A text that is no integer of that word is refused
  with the first cause that reading it from the left shows.

  - `readUnsigned` reads a word without sign; it takes a plus sign but no minus sign.
  - `readSigned` reads a word with sign; it takes both.
-/

namespace MicroBench.Text

/-- Why a text is no integer of the wanted word. -/
inductive NumeralError where
  | empty
  | invalidDigit
  | tooLarge
  | tooSmall
  deriving DecidableEq, Repr

/-- The sentence shown to a user. -/
def NumeralError.message : NumeralError → String
  | .empty => "cannot parse integer from empty string"
  | .invalidDigit => "invalid digit found in string"
  | .tooLarge => "number too large to fit in target type"
  | .tooSmall => "number too small to fit in target type"

/-- The value of a decimal digit. -/
def digitValue? (c : Char) : Option Nat :=
  if '0' ≤ c ∧ c ≤ '9' then some (c.toNat - '0'.toNat) else none

/-- Appends the digits to the number read so far. The number must not leave the range that ends at
    `limit`, else it is refused as `excess`; the cause that comes first in the text counts. -/
def readDigits (limit : Nat) (excess : NumeralError) : Nat → List Char → Except NumeralError Nat
  | number, [] => .ok number
  | number, c :: rest =>
    match digitValue? c with
    | none => .error .invalidDigit
    | some digit =>
      if limit < number * 10 + digit then .error excess
      else readDigits limit excess (number * 10 + digit) rest

/-- Reads at least one digit. -/
def readMagnitude (limit : Nat) (excess : NumeralError) : List Char → Except NumeralError Nat
  | [] => .error .invalidDigit
  | digits => readDigits limit excess 0 digits

/-- Reads a number from `0` to `limit`. -/
def readUnsigned (limit : Nat) (text : String) : Except NumeralError Nat :=
  match text.toList with
  | [] => .error .empty
  | '+' :: rest => readMagnitude limit .tooLarge rest
  | digits => readMagnitude limit .tooLarge digits

/-- Reads a number from `-limit - 1` to `limit`. -/
def readSigned (limit : Nat) (text : String) : Except NumeralError Int :=
  match text.toList with
  | [] => .error .empty
  | '+' :: rest => do pure (← readMagnitude limit .tooLarge rest : Nat)
  | '-' :: rest => do pure (-(← readMagnitude (limit + 1) .tooSmall rest : Nat))
  | digits => do pure (← readMagnitude limit .tooLarge digits : Nat)

/-- Reads a word of 64 bits without sign. -/
def readWord (text : String) : Except NumeralError Nat := readUnsigned ((1 <<< 64) - 1) text

/-- Reads a word of 64 bits with sign. -/
def readInteger (text : String) : Except NumeralError Int := readSigned ((1 <<< 63) - 1) text

end MicroBench.Text

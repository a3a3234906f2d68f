/-! # Doubles with fixed places

  A double is a whole number times a power of two, so it has an exact decimal expansion.
  `fixedText` writes that exact value with a given number of places after the point. A value half
  way between two such texts goes to the one whose last digit is even.
-/

namespace MicroBench

/-- The whole number nearest to `num / den`; a half goes to the even neighbour. -/
def roundHalfEven (num den : Nat) : Nat :=
  let quotient := num / den
  let rest := 2 * (num % den)
  if rest < den then quotient
  else if den < rest then quotient + 1
  else if quotient % 2 = 0 then quotient
  else quotient + 1

/-- The magnitude of a finite double with the given bits, as a fraction. -/
def doubleFraction (bits : UInt64) : Nat × Nat :=
  let mantissa := bits.toNat % (1 <<< 52)
  let exponent := bits.toNat / (1 <<< 52) % (1 <<< 11)
  if exponent = 0 then (mantissa, 1 <<< 1074)
  else if exponent < 1075 then ((1 <<< 52) + mantissa, 1 <<< (1075 - exponent))
  else (((1 <<< 52) + mantissa) <<< (exponent - 1075), 1)

/-- A whole number of units of the last place, written with that many places. -/
def placesText (places units : Nat) : String :=
  let digits := toString (units % Nat.pow 10 places)
  let zeros := String.ofList (List.replicate (places - digits.length) '0')
  toString (units / Nat.pow 10 places) ++ "." ++ zeros ++ digits

/-- The magnitude of a finite double, rounded to the given number of places. -/
def fixedText (places : Nat) (value : Float) : String :=
  let (num, den) := doubleFraction value.toBits
  placesText places (roundHalfEven (num * Nat.pow 10 places) den)

end MicroBench

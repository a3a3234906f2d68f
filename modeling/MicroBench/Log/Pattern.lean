import MicroBench.Log.Pattern.Reader

/-! # Patterns for values

  A filter can describe the value of a field by a number or by a regular expression. Here is decided
  which texts are such a description; what they match is not needed, because only the values of
  spans are compared with them and the program has none.
-/

namespace MicroBench.Log.Pattern

/-- Tells whether a text without sign is a number: a name for an infinite or missing number, or
    decimal digits with an optional point and exponent. -/
def isNumber (chars : List Char) : Bool :=
  let lower := String.ofList (chars.map Char.toLower)
  if lower == "inf" || lower == "infinity" || lower == "nan" then true
  else
    let whole := chars.takeWhile Char.isDigit
    let rest := chars.dropWhile Char.isDigit
    let (places, rest) := match rest with
      | '.' :: rest => (rest.takeWhile Char.isDigit, rest.dropWhile Char.isDigit)
      | _ => ([], rest)
    let exponent := match rest with
      | [] => true
      | 'e' :: sign :: digits | 'E' :: sign :: digits =>
        let digits := if sign = '+' ∨ sign = '-' then digits else sign :: digits
        !digits.isEmpty && digits.all Char.isDigit
      | _ => false
    !(whole ++ places).isEmpty && exponent

/-- Tells whether a text describes values. A number with a plus sign is no regular expression; all
    other numbers are. -/
def describesValues (text : String) : Bool :=
  match text.toList with
  | '+' :: rest => isNumber rest
  | chars => isExpression chars

end MicroBench.Log.Pattern

import MicroBench.Fault

/-! # Cutting texts

  Positions in a text count the bytes in front of them, as the text is stored in UTF-8. A text can be
  cut between two characters, but not inside of one.
-/

namespace MicroBench.Text

/-- How many bytes the characters take. -/
def byteSize (chars : List Char) : Nat := (chars.map Char.utf8Size).foldr (· + ·) 0

/-- The characters from a byte position on. -/
def dropBytes : Nat → List Char → Except Fault (List Char)
  | 0, chars => .ok chars
  | _ + 1, [] => .error .outOfBounds
  | n + 1, c :: rest =>
    if c.utf8Size ≤ n + 1 then dropBytes (n + 1 - c.utf8Size) rest else .error .outOfBounds

/-- The characters up to a byte position. -/
def takeBytes : Nat → List Char → Except Fault (List Char)
  | 0, _ => .ok []
  | _ + 1, [] => .error .outOfBounds
  | n + 1, c :: rest =>
    if c.utf8Size ≤ n + 1 then do pure (c :: (← takeBytes (n + 1 - c.utf8Size) rest))
    else .error .outOfBounds

/-- The text between two byte positions. -/
def cut (chars : List Char) (start stop : Nat) : Except Fault String := do
  require (start ≤ stop) .outOfBounds
  pure (String.ofList (← takeBytes (stop - start) (← dropBytes start chars)))

/-- The text from a byte position on. -/
def cutFrom (chars : List Char) (start : Nat) : Except Fault String := do
  pure (String.ofList (← dropBytes start chars))

end MicroBench.Text

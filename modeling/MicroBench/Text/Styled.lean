import MicroBench.Text.Control

/-! # Styled texts

  Messages and help are texts in which some parts are set off by a style: names of options, and what
  is quoted from outside. Here the styles themselves are not shown. What is left of them is that the
  marks around a styled part end any control sequence in front of it or in it.

  - `Styled.shown` is the text of a message.
  - `Styled.written` is what a stream receives when the message is written to it. The two differ
    only in texts with an interrupted control sequence.
-/

namespace MicroBench.Text

/-- A part of a styled text. -/
inductive Piece where
  /-- A part with a style of its own. -/
  | styled (text : String)
  /-- A part between two styled ones. -/
  | prose (text : String)
  deriving DecidableEq, Repr

/-- A text with styles. -/
abbrev Styled := List Piece

namespace Styled

/-- What is shown of the pieces behind a given state. -/
def shownFrom (state : ControlState) : Styled → List Char
  | [] => []
  | .styled text :: rest => (ControlState.ground.read text.toList).1 ++ shownFrom .ground rest
  | .prose text :: rest =>
    let (kept, state) := state.read text.toList
    kept ++ shownFrom state rest

/-- The text without styles and control sequences. -/
def shown (text : Styled) : String := String.ofList (shownFrom .ground text)

/-- What a stream receives of the pieces. -/
def writtenFrom (stream : Stream) : Styled → List Char
  | [] => []
  | .styled text :: rest => (Stream.read {} text.toList).1 ++ writtenFrom {} rest
  | .prose text :: rest =>
    let (kept, stream) := stream.read text.toList
    kept ++ writtenFrom stream rest

/-- What a stream receives of the text. -/
def written (text : Styled) : String := String.ofList (writtenFrom {} text)

end Styled

end MicroBench.Text

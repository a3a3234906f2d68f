/-! # Control sequences

  A text from outside can hold characters that steer a terminal: single control characters, and
  sequences that an escape character begins. They are left out when the text is shown, so that a
  message can neither be coloured nor be hidden by what it quotes.

  Sequences follow the usual grammar of terminals.

  - A short sequence ends with its first letter or digit, one with parameters ends with its first
    letter behind the bracket.
  - A control string goes on until it is cancelled, another escape character follows, or a string
    terminator ends it. In the head of a device control string a terminator does not count, and a
    command to the system is ended by a bell instead.
  - Tabs, line feeds, form feeds and carriage returns are kept, except inside a control string.

  `ControlState.read` reads a text from a given state. It takes a kept character for the end of a
  sequence. `Stream.read` reads what is written to a stream: there a kept character only interrupts
  a sequence, which goes on with the next character that cannot be shown.
-/

namespace MicroBench.Text

/-- Where a text stands with respect to control sequences. -/
inductive ControlState where
  /-- Outside of any sequence. -/
  | ground
  /-- Behind an escape character. -/
  | escape
  /-- Inside a short sequence, behind one of its intermediate characters. -/
  | intermediate
  /-- Inside a sequence with parameters. -/
  | parameters
  /-- At the beginning of a device control string. -/
  | deviceStart
  /-- In the parameters of a device control string. -/
  | deviceParameters
  /-- Behind an intermediate character of a device control string. -/
  | deviceIntermediate
  /-- Inside a control string that a string terminator ends. -/
  | controlString
  /-- Inside a command to the system, which a bell ends. -/
  | command
  deriving DecidableEq, Repr

/-- Tells whether a control character lays out text. -/
def isLayout (c : Char) : Bool := c == '\t' || c == '\n' || c == '\x0c' || c == '\r'

/-- Tells whether the bytes of a character end a control string: one of them is the string
    terminator, `9c` in hexadecimal, which is a group of the six bits `1c` behind the first byte. -/
def holdsTerminator (c : Char) : Bool :=
  let n := c.toNat
  (0x80 ≤ n && n % 64 == 0x1c) || (0x800 ≤ n && n / 64 % 64 == 0x1c) ||
    (0x10000 ≤ n && n / 4096 % 64 == 0x1c)

namespace ControlState

/-- Tells whether a character is kept. -/
def keeps (state : ControlState) (c : Char) : Bool :=
  match state with
  | ground => isLayout c || (' ' ≤ c && c != '\x7f')
  | escape | intermediate | parameters => isLayout c
  | deviceStart | deviceParameters | deviceIntermediate | controlString | command => false

/-- The state behind a character that is not kept. -/
def after (state : ControlState) (c : Char) : ControlState :=
  if c = '\x1b' then escape
  else if c = '\x18' ∨ c = '\x1a' then ground
  else
    match state with
    | ground => ground
    | escape =>
      if ' ' ≤ c ∧ c ≤ '/' then intermediate
      else if c = '[' then parameters
      else if c = ']' then command
      else if c = 'P' then deviceStart
      else if c = 'X' ∨ c = '^' ∨ c = '_' then controlString
      else if '0' ≤ c ∧ c ≤ '~' then ground
      else escape
    | intermediate => if '0' ≤ c ∧ c ≤ '~' then ground else intermediate
    | parameters => if '@' ≤ c ∧ c ≤ '~' then ground else parameters
    | deviceStart =>
      if ' ' ≤ c ∧ c ≤ '/' then deviceIntermediate
      else if '0' ≤ c ∧ c ≤ '?' then deviceParameters
      else if '@' ≤ c ∧ c ≤ '~' then controlString
      else deviceStart
    | deviceParameters =>
      if ' ' ≤ c ∧ c ≤ '/' then deviceIntermediate
      else if '<' ≤ c ∧ c ≤ '~' then controlString
      else deviceParameters
    | deviceIntermediate => if '0' ≤ c ∧ c ≤ '~' then controlString else deviceIntermediate
    | controlString => if holdsTerminator c then ground else controlString
    | command => if c = '\x07' then ground else command

/-- Reads a text: what is kept of it, and the state behind it. -/
def read (state : ControlState) : List Char → List Char × ControlState
  | [] => ([], state)
  | c :: rest =>
    if state.keeps c then
      let (kept, last) := read ground rest
      (c :: kept, last)
    else read (state.after c) rest

end ControlState

/-- Where a stream stands. -/
structure Stream where
  /-- The sequence that is being left out or has been interrupted. -/
  state : ControlState := .ground
  /-- Whether the last character was kept. -/
  showing : Bool := false
  deriving DecidableEq, Repr

namespace Stream

/-- Writes a text to a stream: what is kept of it, and the stream behind it. A kept character that
    is not one of the basic 128 ends an interrupted sequence. -/
def read (stream : Stream) : List Char → List Char × Stream
  | [] => ([], stream)
  | c :: rest =>
    if stream.showing && ControlState.ground.keeps c then
      let state := if c.toNat < 0x80 then stream.state else .ground
      let (kept, last) := read ⟨state, true⟩ rest
      (c :: kept, last)
    else if stream.state.keeps c then
      let (kept, last) := read ⟨stream.state, true⟩ rest
      (c :: kept, last)
    else read ⟨stream.state.after c, false⟩ rest

end Stream

end MicroBench.Text

import MicroBench.Log.Pattern.Nesting
import MicroBench.Text.Alphanumeric
import MicroBench.Text.Blank

/-! # Reading patterns

  Regular expressions have groups, alternatives, repetitions, classes and escapes. Here is decided
  which texts are regular expressions. They are read from left to right by an automaton, one
  character at a time; where a mark has several characters, the automaton looks at what follows.

  - Counted repetitions are not accepted: their braces cannot be closed inside a filter.
  - Properties of characters are not accepted, nor is ignoring their case, unless the pattern is
    restricted to the basic 128 characters.
  - A pattern that is restricted in this way cannot match anything beyond these characters by a class
    or a dot.
  - In a spaced pattern, blanks and comments between the parts are skipped.
-/

namespace MicroBench.Log.Pattern

/-- The flags that decide which patterns are accepted. -/
structure Flags where
  /-- Whether case is ignored. -/
  caseless : Bool := false
  /-- Whether classes are about all characters or only about the basic ones. -/
  allCharacters : Bool := true
  /-- Whether blanks and comments are skipped. -/
  spaced : Bool := false
  deriving DecidableEq, Repr

namespace Flags

/-- Sets the flag with a given letter. The other flags change only what is matched. -/
def set? (flags : Flags) (letter : Char) (value : Bool) : Option Flags :=
  match letter with
  | 'i' => some { flags with caseless := value }
  | 'u' => some { flags with allCharacters := value }
  | 'x' => some { flags with spaced := value }
  | 'm' | 's' | 'U' | 'R' => some flags
  | _ => none

/-- Tells whether characters would have to be compared with the other cases of all characters. -/
def needsCases (flags : Flags) : Bool := flags.caseless && flags.allCharacters

/-- Tells whether a class can name a character. -/
def admits (flags : Flags) (c : Char) : Bool :=
  !flags.needsCases && (flags.allCharacters || c.toNat < 0x80)

end Flags

/-! ## Escapes -/

/-- What a character behind a backslash begins. -/
inductive Escape where
  /-- A character that stands for itself. -/
  | character (c : Char)
  /-- A code point with this number of hexadecimal digits. -/
  | codePoint (digits : Nat)
  /-- A place in the text: its beginning or end, or the border of a word. -/
  | place (word : Bool)
  /-- A class of digits, blanks or word characters. -/
  | shorthand
  deriving DecidableEq, Repr

/-- The escape that a character stands for. -/
def Escape.ofChar? (c : Char) : Option Escape :=
  match c with
  | 'x' => some (.codePoint 2)
  | 'u' => some (.codePoint 4)
  | 'U' => some (.codePoint 8)
  | 'a' => some (.character '\x07')
  | 't' => some (.character '\t')
  | 'n' => some (.character '\n')
  | 'v' => some (.character '\x0b')
  | 'f' => some (.character '\x0c')
  | 'r' => some (.character '\r')
  | 'A' | 'z' => some (.place false)
  | 'b' | 'B' | '<' | '>' => some (.place true)
  | 'd' | 's' | 'w' => some .shorthand
  | _ => if c.isAlphanum || 0x80 ≤ c.toNat then none else some (.character c)

/-- The value of a hexadecimal digit. -/
def hexValue? (c : Char) : Option Nat :=
  if '0' ≤ c ∧ c ≤ '9' then some (c.toNat - '0'.toNat)
  else if 'a' ≤ c ∧ c ≤ 'f' then some (c.toNat - 'a'.toNat + 10)
  else if 'A' ≤ c ∧ c ≤ 'F' then some (c.toNat - 'A'.toNat + 10)
  else none

/-! ## Looking ahead -/

/-- The character that tells whether a dash is followed by the end of a range. Blanks and the first
    mark of a comment do not count in a spaced pattern. -/
def ahead? (spaced : Bool) (rest : List Char) : Option Char :=
  let visible :=
    match rest.dropWhile Text.isBlank with
    | '#' :: comment => comment.dropWhile Text.isBlank
    | visible => visible
  if spaced then visible.head?.or rest.head? else rest.head?

/-- The names of classes that stand between brackets and colons. -/
def classNames : List String :=
  ["alnum", "alpha", "ascii", "blank", "cntrl", "digit", "graph", "lower", "print", "punct", "space",
    "upper", "word", "xdigit"]

/-- A class that is given by its name. -/
structure NamedClass where
  negated : Bool
  /-- How many characters follow the opening bracket. -/
  size : Nat
  deriving DecidableEq, Repr

/-- The class that is named behind an opening bracket, if there is one. -/
def NamedClass.behindBracket? (rest : List Char) : Option NamedClass :=
  match rest with
  | ':' :: rest =>
    let negated := rest.head? == some '^'
    let rest := if negated then rest.drop 1 else rest
    let name := rest.takeWhile (· != ':')
    if classNames.contains (String.ofList name) && [':', ']'].isPrefixOf (rest.drop name.length) then
      some ⟨negated, (if negated then 2 else 1) + name.length + 2⟩
    else none
  | _ => none

/-! ## States -/

/-- Where an escaped character stands. -/
inductive Place where
  /-- Outside of classes. -/
  | outside
  /-- In a class, as a member or as the beginning of a range. -/
  | member
  /-- In a class, as the end of a range that begins with a character. -/
  | rangeEnd (first : Char)
  deriving DecidableEq, Repr

/-- What the automaton has just read. -/
inductive Mode where
  /-- Items outside of classes. -/
  | items
  /-- The mark of a repetition, which a question mark can follow. -/
  | repeated
  /-- A backslash. -/
  | escaped (place : Place)
  /-- The beginning of a code point: how many digits it has, how many are missing, and the value of
      the others. -/
  | codePoint (place : Place) (digits missing value : Nat)
  /-- An opening parenthesis. -/
  | groupStart
  /-- A question mark behind an opening parenthesis. -/
  | groupKind
  /-- The letter in front of a group's name. -/
  | groupNamed
  /-- The beginning of a group's name. -/
  | groupName (name : List Char)
  /-- Flags: which ones, whether a minus sign was among them, whether it was last, and what holds
      with them. -/
  | groupFlags (seen : List Char) (negated dangling : Bool) (flags : Flags)
  /-- An opening bracket, perhaps with a caret, and perhaps with dashes. -/
  | classStart (negated dashes : Bool)
  /-- Complete members of a class. -/
  | members
  /-- The beginning of an operator or a named class, of which more characters follow. -/
  | passing (more : Nat)
  /-- A member of a class that a dash can follow, with the character it stands for. -/
  | member (first : Option Char)
  /-- A dash behind the beginning of a range. -/
  | range (first : Char)
  deriving DecidableEq, Repr

/-- Tells whether blanks and comments are skipped at this point of a spaced pattern. -/
def Mode.skipsBlanks : Mode → Bool
  | .items | .groupStart | .codePoint .. | .classStart .. | .members | .member _ | .range _ => true
  | .repeated | .escaped _ | .groupKind | .groupNamed | .groupName _ | .groupFlags ..
  | .passing _ => false

/-- The state of the automaton. -/
structure State where
  mode : Mode := .items
  /-- Whether the automaton is inside a comment. -/
  comment : Bool := false
  flags : Flags := {}
  /-- The alternatives of the innermost open group. -/
  choice : Choice := {}
  /-- What held in front of the open groups, and the alternatives around them, the innermost
      first. -/
  groups : List (Flags × Choice) := []
  /-- The members of the open classes, the innermost first. -/
  classes : List Members := []
  /-- The names of groups so far. -/
  names : List (List Char) := []
  deriving DecidableEq, Repr

namespace State

/-- Goes on with another mode. -/
def into (state : State) (mode : Mode) : Option State := some { state with mode := mode }

/-! ## Items -/

/-- Adds an item that can be repeated. -/
def push (state : State) (height : Nat) : State :=
  { state with mode := .items, choice := state.choice.push height true }

/-- Repeats the last item. -/
def repeatLast (state : State) : Option State := do
  let current ← state.choice.current.repeatLast?
  some { state with mode := .repeated, choice := { state.choice with current := current } }

/-- Opens a group in which flags hold. -/
def openGroup (state : State) (flags : Flags) : State :=
  { state with
    mode := .items
    flags := flags
    choice := {}
    groups := (state.flags, state.choice) :: state.groups }

/-- Closes the innermost group, which can then be repeated. -/
def closeGroup (state : State) : Option State :=
  match state.groups with
  | [] => none
  | (flags, outer) :: groups =>
    some { state with
      mode := .items
      flags := flags
      choice := outer.push (1 + state.choice.height) true
      groups := groups }

/-! ## Members of classes -/

/-- Opens a class. -/
def openClass (state : State) : State :=
  { state with mode := .classStart false false, classes := {} :: state.classes }

/-- Changes the members of the innermost class. -/
def updateMembers (state : State) (update : Members → Members) : State :=
  { state with classes := state.classes.modifyHead update }

/-- Adds a member to the innermost class. -/
def pushMember (state : State) (height : Nat) (mode : Mode) : State :=
  { state.updateMembers (·.push height) with mode := mode }

/-- Closes the innermost class: it becomes a member of the class around it, or an item. -/
def closeClass (state : State) : Option State :=
  match state.classes with
  | [] => none
  | [members] => some ({ state with classes := [] }.push (1 + members.height))
  | members :: classes =>
    some ({ state with classes := classes }.pushMember (1 + members.height) .members)

/-- Adds a character to the innermost class. -/
def pushCharacter (state : State) (c : Char) (mode : Mode) : Option State :=
  if state.flags.admits c then some (state.pushMember 0 mode) else none

/-- Adds a class with a name to the innermost class. -/
def pushNamed (state : State) (named : NamedClass) : Option State :=
  if state.flags.needsCases || (named.negated && !state.flags.allCharacters) then none
  else some (state.pushMember 0 (.passing named.size))

/-! ## Characters -/

/-- Reads a character that stands for itself. One that is given as a byte has to be a basic one if the
    pattern is restricted to these. -/
def literal (state : State) (place : Place) (byte : Bool) (c : Char) : Option State :=
  match place with
  | .outside =>
    if state.flags.needsCases || (byte && !state.flags.allCharacters && 0x80 ≤ c.toNat) then none
    else some (state.push 0)
  | .member => state.pushCharacter c (.member (some c))
  | .rangeEnd first =>
    if first ≤ c && state.flags.admits c then state.into .members else none

/-- Reads a character behind a backslash. -/
def escape (state : State) (place : Place) (c : Char) : Option State := do
  match ← Escape.ofChar? c with
  | .character c => state.literal place false c
  | .codePoint digits => state.into (.codePoint place digits digits 0)
  | .place word =>
    if place = .outside && !(word && state.flags.allCharacters) then some (state.push 0) else none
  | .shorthand =>
    if state.flags.allCharacters then none
    else
      match place with
      | .outside => some (state.push 0)
      | .member => some (state.pushMember 0 (.member none))
      | .rangeEnd _ => none

/-- Reads a digit of a code point. One with two digits is a byte. -/
def codePoint (state : State) (place : Place) (digits missing value : Nat) (c : Char) :
    Option State := do
  let value := value * 16 + (← hexValue? c)
  if 1 < missing then state.into (.codePoint place digits (missing - 1) value)
  else if value.isValidChar then state.literal place (digits == 2) (Char.ofNat value)
  else none

/-- Reads a character outside of classes. -/
def item (state : State) (c : Char) : Option State :=
  match c with
  | '(' => state.into .groupStart
  | ')' => state.closeGroup
  | '|' => some { state with mode := .items, choice := state.choice.split }
  | '[' => some state.openClass
  | '?' | '*' | '+' => state.repeatLast
  | '\x7b' => none
  | '\\' => state.into (.escaped .outside)
  | '.' => if state.flags.allCharacters then some (state.push 0) else none
  | '^' | '$' => some (state.push 0)
  | _ => state.literal .outside false c

/-- Reads a character between the members of a class, in front of the rest of the pattern. -/
def classMember (state : State) (c : Char) (rest : List Char) : Option State :=
  match c with
  | '[' =>
    match NamedClass.behindBracket? rest with
    | some named => state.pushNamed named
    | none => some state.openClass
  | ']' => state.closeClass
  | '\\' => state.into (.escaped .member)
  | _ =>
    if (c = '&' || c = '-' || c = '~') && rest.head? == some c then
      (state.updateMembers Members.split).into (.passing 1)
    else state.literal .member false c

/-- Reads a character at the beginning of a class. -/
def classBeginning (state : State) (negated dashes : Bool) (c : Char) (rest : List Char) :
    Option State :=
  if c = '^' && !negated && !dashes then
    if state.flags.allCharacters then state.into (.classStart true false) else none
  else if c = '-' then state.pushCharacter c (.classStart negated true)
  else if c = ']' && !dashes then state.pushCharacter c .members
  else state.classMember c rest

/-- Reads a character behind a member. A dash makes it the beginning of a range, unless the class or
    an operator follows the dash. -/
def behindMember (state : State) (first : Option Char) (c : Char) (rest : List Char) :
    Option State :=
  let next := ahead? state.flags.spaced rest
  if c = '-' && next != some ']' && next != some '-' then first.bind fun c => state.into (.range c)
  else state.classMember c rest

/-! ## Groups -/

/-- Reads a character among the flags of a group. Flags that are closed at once hold for the rest of
    the group around them. -/
def flag (state : State) (seen : List Char) (negated dangling : Bool) (flags : Flags) (c : Char) :
    Option State :=
  match c with
  | ':' => if dangling then none else some (state.openGroup flags)
  | ')' =>
    if dangling || seen.isEmpty then none
    else some { state with mode := .items, flags := flags, choice := state.choice.push 0 false }
  | '-' => if negated then none else state.into (.groupFlags seen true true flags)
  | _ => do
    let flags ← flags.set? c (!negated)
    if seen.contains c then none else state.into (.groupFlags (c :: seen) negated false flags)

/-- Tells whether a group's name can go on with a character. -/
def continuesName (name : List Char) (c : Char) : Bool :=
  if name.isEmpty then c == '_' || Text.isLetter c
  else c == '_' || c == '.' || c == '[' || c == ']' || Text.isAlphanumeric c

/-- Reads a character of a group's name. -/
def groupName (state : State) (name : List Char) (c : Char) : Option State :=
  if c = '>' then
    if name.isEmpty || state.names.contains name then none
    else some { state.openGroup state.flags with names := name :: state.names }
  else if continuesName name c then state.into (.groupName (name ++ [c]))
  else none

/-! ## Whole patterns -/

/-- Reads a character that is neither skipped nor part of a comment. -/
def dispatch (state : State) (c : Char) (rest : List Char) : Option State :=
  match state.mode with
  | .items => state.item c
  | .repeated => if c = '?' then state.into .items else state.item c
  | .escaped place => state.escape place c
  | .codePoint place digits missing value => state.codePoint place digits missing value c
  | .groupStart =>
    if c = '?' then state.into .groupKind else (state.openGroup state.flags).item c
  | .groupKind =>
    match c with
    | 'P' => state.into .groupNamed
    | '<' => state.into (.groupName [])
    | _ => state.flag [] false false state.flags c
  | .groupNamed => if c = '<' then state.into (.groupName []) else none
  | .groupName name => state.groupName name c
  | .groupFlags seen negated dangling flags => state.flag seen negated dangling flags c
  | .classStart negated dashes => state.classBeginning negated dashes c rest
  | .members => state.classMember c rest
  | .passing more => state.into (if 1 < more then .passing (more - 1) else .members)
  | .member first => state.behindMember first c rest
  | .range first =>
    if c = '\\' then state.into (.escaped (.rangeEnd first))
    else state.literal (.rangeEnd first) false c

/-- Leaves the mark of a repetition behind, unless a question mark belongs to it. -/
def settle (state : State) (c : Char) : State :=
  if state.mode = .repeated ∧ c ≠ '?' then { state with mode := .items } else state

/-- Reads one character in front of the rest of the pattern. -/
def step (state : State) (c : Char) (rest : List Char) : Option State :=
  let state := state.settle c
  if state.comment then some { state with comment := c != '\n' }
  else if state.flags.spaced && state.mode.skipsBlanks && (Text.isBlank c || c == '#') then
    some { state with comment := c == '#' }
  else state.dispatch c rest

/-- Reads a whole pattern. -/
def run (state : State) : List Char → Option State
  | [] => some state
  | c :: rest => do (← state.step c rest).run rest

/-- Tells whether everything that was opened is closed and the pattern is not too high. -/
def complete (state : State) : Bool :=
  (state.mode = .items || state.mode = .repeated) && state.groups.isEmpty &&
    state.choice.height ≤ maxHeight

end State

/-- Tells whether a text is a regular expression. -/
def isExpression (chars : List Char) : Bool := (State.run {} chars).any State.complete

end MicroBench.Log.Pattern

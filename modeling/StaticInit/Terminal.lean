/-!
# Text for a terminal

A text that comes from outside may hold control sequences, which a terminal
would obey instead of showing. They are left out, together with all control
characters but those that make space (tab, line feed, form feed and carriage
return). The text is read by the states of a terminal's own parser: a sequence
begins with an escape character, and its kind decides what ends it.

A blank is shown even inside some sequences. In a text that is kept as a value
(`Terminal.plain`) it ends the sequence. In one that is printed to a stream
(`Terminal.printed`) it only suspends the sequence, which the next control
character takes up again.
-/

namespace StaticInit.Terminal

/-- Where in a control sequence the reading stands. -/
inductive State where
  /-- In none. -/
  | ground
  | escape
  | escapeIntermediate
  /-- In a control sequence with parameters, up to its final letter. -/
  | control
  | deviceEntry
  | deviceParameter
  | deviceIntermediate
  /-- In a command to the system, up to a bell or the next escape character. -/
  | command
  /-- In a string that is never shown. -/
  | string
deriving DecidableEq

/-- The control characters that make space. -/
def isBlank (c : Char) : Bool := c = '\t' || c = '\n' || c = '\x0c' || c = '\r'

/-- Whether a string ends with this character: its encoding holds the byte that closes strings. -/
def closesString (c : Char) : Bool := (String.utf8EncodeChar c).contains 0x9c

namespace State

/-- The sequences that a blank interrupts. -/
def yieldsToBlank : State → Bool
  | .ground | .escape | .escapeIntermediate | .control => true
  | .deviceEntry | .deviceParameter | .deviceIntermediate | .command | .string => false

/-- The state after a printable ASCII character. -/
def follow (c : Char) : State → State
  | .ground => .ground
  | .escape =>
    if c ≤ '/' then .escapeIntermediate
    else match c with
      | '[' => .control
      | ']' => .command
      | 'P' => .deviceEntry
      | 'X' | '^' | '_' => .string
      | _ => .ground
  | .escapeIntermediate => if c ≤ '/' then .escapeIntermediate else .ground
  | .control => if c < '@' then .control else .ground
  | .deviceEntry =>
    if c ≤ '/' then .deviceIntermediate else if c < '@' then .deviceParameter else .string
  | .deviceParameter =>
    if c ≤ '/' then .deviceIntermediate else if c ≤ ';' then .deviceParameter else .string
  | .deviceIntermediate => if c ≤ '/' then .deviceIntermediate else .string
  | .command => .command
  | .string => .string

/-- The state after a character, and whether the character is shown. -/
def step (s : State) (c : Char) : State × Bool :=
  if c = '\x1b' then (.escape, false)
  else if c = '\x18' || c = '\x1a' then (.ground, false)
  else if isBlank c && s.yieldsToBlank then (.ground, true)
  else if s = .ground then (.ground, ' ' ≤ c && c != '\x7f')
  else if ' ' ≤ c && c ≤ '~' then (s.follow c, false)
  else if s = .command && c = '\x07' then (.ground, false)
  else if s = .string && closesString c then (.ground, false)
  else (s, false)

end State

/-- The characters that are shown when the reading starts in a state and a blank ends a sequence. -/
def shown : State → List Char → List Char
  | _, [] => []
  | s, c :: cs => if (s.step c).2 then c :: shown (s.step c).1 cs else shown (s.step c).1 cs

/--
The characters that are shown when the reading starts in a state and a blank
suspends a sequence. In a run of shown characters (`inRun`) the state is that of
the suspended sequence, in which the first character that is not shown is read;
a character beyond ASCII drops the sequence.
-/
def shownInRuns : State → Bool → List Char → List Char
  | _, _, [] => []
  | s, inRun, c :: cs =>
    if ((if inRun then .ground else s).step c).2 then
      c :: shownInRuns (if c ≤ '~' then s else .ground) true cs
    else shownInRuns (s.step c).1 false cs

/-- The text without its control sequences, as it is kept. -/
def plain (text : String) : String := String.ofList (shown .ground text.toList)

/-- The text without its control sequences, as it goes to a stream. -/
def printed (text : String) : String := String.ofList (shownInRuns .ground false text.toList)

/-- The part before the first line break: a line feed, and a carriage return right before it. -/
def firstLine : List Char → List Char
  | [] => []
  | '\n' :: _ => []
  | '\r' :: '\n' :: _ => []
  | c :: cs => c :: firstLine cs

end StaticInit.Terminal

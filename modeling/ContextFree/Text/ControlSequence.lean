import ContextFree.Text.CodePoint

/-!
# Control sequences

A terminal does not show all the characters that are sent to it. A **control sequence** starts
with an escape character and goes on for as long as its form says; it moves the cursor, sets a
colour, names the window. Control characters that stand alone are not shown either, save those
that move on to another line or column. `visible` leaves of a text what is shown.

A text is taken in from left to right, and a `Form` tells which kind of control sequence, if any,
the next character belongs to.
-/

namespace ContextFree

namespace Text

/-- What the next character is a part of. -/
inductive Form where
  | shown
  /-- A sequence of which only the escape character has been met. -/
  | escape
  /-- A short sequence that goes on until a final character. -/
  | short
  /-- A sequence with parameters that goes on until a final letter. -/
  | parameters
  | device
  | deviceParameters
  | deviceIntermediates
  /-- A row of characters for a device, up to a terminator. -/
  | data
  /-- A command for the operating system, up to a bell. -/
  | systemCommand
deriving DecidableEq

def isBetween (low high c : Char) : Bool := low ≤ c && c ≤ high

def isControl (c : Char) : Bool := c < ' ' || c = '\x7f'

/-- Whether a control character moves on to another line or column: a tab, a line feed, a form
feed or a carriage return. -/
def isMove (c : Char) : Bool := c ∈ ['\t', '\n', '\x0c', '\r']

/-- Whether one of the bytes of a character in UTF-8 is the terminator of data. -/
def hasTerminator (c : Char) : Bool := (String.utf8EncodeChar c).contains 0x9C

namespace Form

/-- The form that the first character after the escape character stands for. -/
def ofIntroducer (c : Char) : Form :=
  if c = '[' then .parameters
  else if c = ']' then .systemCommand
  else if c = 'P' then .device
  else if c ∈ ['X', '^', '_'] then .data
  else if isBetween ' ' '/' c then .short
  else if isBetween '0' '~' c then .shown
  else .escape

/-- What the character after this one is a part of. An escape character starts a new sequence in
any form, and the characters to cancel and to substitute end one. -/
def next (form : Form) (c : Char) : Form :=
  if c = '\x1b' then .escape
  else if c = '\x18' || c = '\x1a' then .shown
  else match form with
    | shown => .shown
    | escape => ofIntroducer c
    | short => if isBetween '0' '~' c then .shown else .short
    | parameters => if isBetween '@' '~' c then .shown else .parameters
    | device =>
      if isBetween ' ' '/' c then .deviceIntermediates
      else if isBetween '0' '?' c then .deviceParameters
      else if isBetween '@' '~' c then .data
      else .device
    | deviceParameters =>
      if isBetween ' ' '/' c then .deviceIntermediates
      else if isBetween '<' '~' c then .data
      else .deviceParameters
    | deviceIntermediates =>
      if isBetween '0' '~' c then .data else .deviceIntermediates
    | data => if hasTerminator c then .shown else .data
    | systemCommand => if c = '\x07' then .shown else .systemCommand

/-- Whether a terminal heeds a move inside the form. -/
def heedsMoves : Form → Bool
  | shown | escape | short | parameters => true
  | _ => false

/-- Whether a character is left of the text. -/
def leaves (form : Form) (c : Char) : Bool :=
  if isControl c then isMove c && form.heedsMoves else form = .shown

end Form

/-- The characters that are shown, if the text starts in the given form. -/
def visibleFrom (form : Form) : List Char → List Char
  | [] => []
  | c :: text =>
    if form.leaves c then c :: visibleFrom (form.next c) text else visibleFrom (form.next c) text

def visible (text : String) : String := String.ofList (visibleFrom .shown text.toList)

end Text

end ContextFree

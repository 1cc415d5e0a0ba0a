import ContextFree.Failure
import ContextFree.Text.Alphanumeric
import ContextFree.Text.Blank
import ContextFree.Text.Pieces

/-!
# Lines of rules

One line of a grammar text is one rule:

    S → a B | ε
    Expr -> Expr + Term | Term

A left-hand side, an arrow in one of two spellings, and bodies separated by bars; between these
parts, and around the symbols of a body, there may be blanks. A left-hand side is made of letters
and numbers of any script, underscores and apostrophes. A symbol of a body is made of anything
but white space, bars and the sign `#`, so that it may well contain an arrow.

A line is read from left to right and each part takes as much as it can. Where a line stops being
a rule, the reader hands back what is left of it: `RuleLine.parse` fails with the unread rest, and
the message shows the line with a mark under the first byte of that rest. A bar is read together
with the body after it; if no body follows, the rest begins with the bar.

The sign of the empty word is special: it may only stand for a whole body. A line that has it on
the left-hand side or among other symbols is refused after it has been read.
-/

namespace ContextFree

/-- A rule as it stands in a text: the names on its left-hand side and in its bodies. -/
structure RuleLine where
  lhs : Name
  bodies : List (List Name)
deriving DecidableEq

def emptyName : Name := ⟨emptySign, by decide⟩

namespace RuleLine

open Text

def isLeftSideChar (c : Char) : Bool := isAlphanumeric c || c = '_' || c = '\''

def isSymbolChar (c : Char) : Bool := !isWhiteSpace c && c ≠ '|' && c ≠ '#'

/-- The characters of a body: those of its symbols, and the blanks around them. -/
def isBodyChar (c : Char) : Bool := isBlank c || isSymbolChar c

/-- What follows the arrow, if the text begins with one. -/
def afterArrow? : List Char → Option (List Char)
  | '→' :: rest => some rest
  | '-' :: '>' :: rest => some rest
  | _ => none

/-- The symbols of the body that the text begins with, blanks included. -/
def firstBody (text : List Char) : List Name := words isBlank (text.takeWhile isBodyChar)

/-- What follows the body that the text begins with. -/
def afterBody (text : List Char) : List Char := text.dropWhile isBodyChar

theorem length_afterBody_le (text : List Char) : (afterBody text).length ≤ text.length :=
  (List.dropWhile_sublist _).length_le

/-- The bodies that follow, each after a bar, and the text after the last of them. -/
def furtherBodies (text : List Char) : List (List Name) × List Char :=
  match text with
  | '|' :: rest =>
    match firstBody rest with
    | [] => ([], text)
    | body =>
      let (bodies, unread) := furtherBodies (afterBody rest)
      (body :: bodies, unread)
  | _ => ([], text)
termination_by text.length
decreasing_by
  have := length_afterBody_le rest
  simp_all only [List.length_cons]
  omega

/-- The bodies after the arrow, or the text where the first body should be. -/
def parseBodies (text : List Char) : Except (List Char) (List (List Name)) :=
  match firstBody text with
  | [] => .error (afterBody text)
  | body =>
    match furtherBodies (afterBody text) with
    | (bodies, []) => .ok (body :: bodies)
    | (_, unread) => .error unread

/-- The rule on a line, or the part of the line that could not be read. -/
def parse (line : List Char) : Except (List Char) RuleLine :=
  let text := line.dropWhile isBlank
  match Name.ofChars? (text.takeWhile isLeftSideChar) with
  | none => .error text
  | some lhs =>
    let text := (text.dropWhile isLeftSideChar).dropWhile isBlank
    match afterArrow? text with
    | none => .error text
    | some text => (parseBodies text).map fun bodies => ⟨lhs, bodies⟩

/-- Whether the sign of the empty word stands where it may not: on the left-hand side, or in a
body that has other symbols. -/
def hasMisplacedEmpty (rule : RuleLine) : Bool :=
  rule.lhs = emptyName || rule.bodies.any fun body => 1 < body.length && body.contains emptyName

/-- The rule on a line, or why there is none. -/
def read (line : List Char) : Except LineFault RuleLine :=
  match parse line with
  | .error unread => .error (.unexpected line unread)
  | .ok rule => if rule.hasMisplacedEmpty then .error .misplacedEmpty else .ok rule

/-- Whether a line holds no rule: it is empty but for white space, or its first other character is
the sign of a comment. -/
def isSkipped (line : List Char) : Bool :=
  match line.dropWhile isWhiteSpace with
  | [] => true
  | c :: _ => c = '#'

variable {line : List Char} {rule : RuleLine}

/-- The sign of the empty word stands where it may if it is a body of its own wherever it stands. -/
theorem hasMisplacedEmpty_eq_false_iff :
    rule.hasMisplacedEmpty = false ↔
      rule.lhs ≠ emptyName ∧ ∀ body ∈ rule.bodies, emptyName ∈ body → body = [emptyName] := by
  have alone (body : List Name) : (1 < body.length → emptyName ∉ body) ↔
      (emptyName ∈ body → body = [emptyName]) := by
    match body with
    | [] => simp
    | [a] => simp [eq_comm]
    | a :: b :: others => simp
  simp [hasMisplacedEmpty, alone]

/-- A line is read if it is a rule in which the sign of the empty word stands where it may. -/
theorem read_eq_ok_iff :
    read line = .ok rule ↔ parse line = .ok rule ∧ rule.hasMisplacedEmpty = false := by
  unfold read
  split
  · next failed => simp [failed]
  · next other parsed =>
    rw [parsed, Except.ok.injEq]
    split
    · next misplaced =>
      refine ⟨nofun, ?_⟩
      rintro ⟨rfl, placed⟩
      rw [misplaced] at placed
      cases placed
    · next placed =>
      rw [Except.ok.injEq]
      refine ⟨?_, And.left⟩
      rintro rfl
      exact ⟨rfl, by simpa using placed⟩

end RuleLine

end ContextFree

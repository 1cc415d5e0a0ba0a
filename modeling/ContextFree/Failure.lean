import ContextFree.Symbol
import ContextFree.Text.Pieces

/-!
# What can go wrong

Every refusal of the library is a value that names its cause; the wording is in one place, the
function `message` of the type.

* `Malformed` — the parts of a grammar do not fit together.
* `LineFault` — a line of a text is not a rule.
* `Failure` — anything that keeps a grammar from being built, read or brought into another form.
* `IndexFault` — a position outside a chart.
-/

namespace ContextFree

/-- Why the parts given for a grammar do not make one. A body that mentions an undeclared
symbol is kept as it was given, by the names in it. -/
inductive Malformed where
  | missingStart (start : Name)
  | overlappingAlphabets (name : Name)
  | undeclaredLeftSide (lhs : Name)
  | undeclaredSymbol (lhs : Name) (body : List String) (symbol : String)
  | emptyName
deriving DecidableEq

/-- Why a text is not a grammar: what is wrong with its first bad line, or that it has no rule at
all. Of a line that stops being a rule somewhere, the part from there on is `unread`. -/
inductive LineFault where
  | unexpected (line unread : List Char)
  | misplacedEmpty
  | noRules
deriving DecidableEq

/-- The three sets of a grammar that are computed by repeated rounds. -/
inductive Closure where
  | nullable
  | unit
  | productive
deriving DecidableEq

/-- What keeps a grammar from being built, read or brought into another form. -/
inductive Failure where
  | malformed (fault : Malformed)
  | nameTaken (name : Name)
  | unstable (closure : Closure) (bound : Nat)
  | unreadable (line : Nat) (fault : LineFault)
  | notNormal (lhs : Name) (body : Body)
  | namesExhausted
deriving DecidableEq

/-- A position past the end of a row of `size` places. -/
structure IndexFault where
  size : Nat
  index : Nat
deriving DecidableEq

namespace Malformed

def message : Malformed → String
  | missingStart start => s!"start symbol {start.text} is not a declared non-terminal"
  | overlappingAlphabets name =>
    s!"symbol {name.text} is declared both as a terminal and as a non-terminal"
  | undeclaredLeftSide lhs =>
    s!"productions are given for {lhs.text}, which is not a declared non-terminal"
  | undeclaredSymbol lhs body symbol =>
    s!"production {lhs.text} → {spell body} references undeclared symbol {symbol}"
  | emptyName => "symbol names must not be empty"

end Malformed

namespace LineFault

/-- The wording of a fault. A line that cannot be read to its end is shown with a mark below it,
as many blanks from the left as there are bytes in front of the unread part. -/
def message : LineFault → String
  | unexpected line unread =>
    let offset := Text.byteSize line - Text.byteSize unread
    String.ofList line ++ "\n" ++ "".pushn ' ' offset ++ "^\n"
  | misplacedEmpty => emptySign ++ " must stand alone as a body"
  | noRules => "grammar has no rules"

def located (line : Nat) (reason : String) : String := s!"line {line}: {reason}"

end LineFault

namespace Closure

def label : Closure → String
  | nullable => "nullable"
  | unit => "unit"
  | productive => "productive"

end Closure

namespace Failure

def message : Failure → String
  | malformed fault => s!"malformed grammar: {fault.message}"
  | nameTaken name => s!"fresh non-terminal {name.text} collides with an existing symbol"
  | unstable closure bound =>
    s!"{closure.label} closure did not stabilise within {bound} rounds"
  | unreadable line fault => LineFault.located line fault.message
  | notNormal lhs body =>
    s!"production {lhs.text} → {body.text} is not in Chomsky normal form"
  | namesExhausted => "attempt to add with overflow"

end Failure

namespace IndexFault

def message (fault : IndexFault) : String :=
  s!"index out of bounds: the len is {fault.size} but the index is {fault.index}"

end IndexFault

end ContextFree

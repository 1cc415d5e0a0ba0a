import ContextFree.Grammar.Basic
import ContextFree.Text.Box

/-!
# Grammars written out

A grammar is shown in one of two forms: as a definition, the way grammars are set down in
textbooks, or as a table with one row for each rule. Both list the rules in their order; the
definition puts the start symbol before the other non-terminals, the table marks it with an
arrow. Texts of bodies are separated by bars, and a rule without bodies shows the sign `∅`.

What kind of bodies the rules have does not matter, as long as each body has a text.
-/

namespace ContextFree

namespace Listing

variable {β : Type} (text : β → String)

def alternatives (rule : Rule β) : String := enumerate " | " (rule.bodies.map text)

def definition (start : Name) (nonterminals terminals : List Name) (rules : List (Rule β)) :
    String :=
  let nonterminals := commaList (start :: nonterminals.filter (· ≠ start))
  let rules := rules.map fun rule =>
    "  " ++ rule.lhs.text ++ " → " ++ alternatives text rule ++ "\n"
  s!"G = (\x7b{nonterminals}\x7d, \x7b{commaList terminals}\x7d, P, {start.text})\n\n" ++
    "P = \x7b\n" ++ String.join rules ++ "\x7d\n"

/-- The left-hand side of a rule, marked if it is the start symbol. -/
def markedLeftSide (start : Name) (rule : Rule β) : String :=
  if rule.lhs = start then "→" ++ rule.lhs.text else rule.lhs.text

def table (start : Name) (rules : List (Rule β)) : String :=
  Text.boxed <| ["", "Productions"] ::
    rules.map fun rule => [markedLeftSide start rule, alternatives text rule]

end Listing

namespace Grammar

def definition (G : Grammar) : String :=
  Listing.definition Body.text G.start G.nonterminals G.terminals G.rules

def table (G : Grammar) : String := Listing.table Body.text G.start G.rules

end Grammar

end ContextFree

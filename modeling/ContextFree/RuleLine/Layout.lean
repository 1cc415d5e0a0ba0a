import ContextFree.RuleLine

/-!
# How rules are laid out

The other side of `RuleLine.parse`: a **layout** says how a rule is set on a line, symbol by symbol
and blank by blank, and `Layout.text` is the line. A layout is `Valid` if its blanks are blanks,
its names are made of the characters that the reader admits, no body is empty, and there is a blank
between any two symbols of a body.
-/

namespace ContextFree

namespace RuleLine

open Text

def Blanks (text : List Char) : Prop := ∀ c ∈ text, isBlank c

/-- A body as it is set: its symbols, each with what stands before it, and what stands after the
last of them. -/
structure BodyLayout where
  symbols : List (List Char × Name)
  trail : List Char

namespace BodyLayout

def names (body : BodyLayout) : List Name := body.symbols.map (·.2)

/-- The body as a piece of text. -/
def text (body : BodyLayout) : List Char :=
  body.symbols.flatMap (fun (gap, a) => gap ++ a.text.toList) ++ body.trail

structure Valid (body : BodyLayout) : Prop where
  symbols_ne_nil : body.symbols ≠ []
  isSymbolChar : ∀ s ∈ body.symbols, ∀ c ∈ s.2.text.toList, isSymbolChar c
  /-- There are only blanks around the symbols. -/
  blanks : ∀ s ∈ body.symbols, Blanks s.1
  /-- Any two symbols are set apart. -/
  apart : ∀ s ∈ body.symbols.tail, s.1 ≠ []
  blanks_trail : Blanks body.trail

end BodyLayout

/-- The two spellings of the arrow. -/
inductive Arrow where
  | sign
  | letters

def Arrow.text : Arrow → List Char
  | sign => ['→']
  | letters => ['-', '>']

/-- A rule as it is set on a line. -/
structure Layout where
  indent : List Char
  lhs : Name
  gap : List Char
  arrow : Arrow
  bodies : List BodyLayout

namespace Layout

/-- The rule, without the way it is set. -/
def rule (layout : Layout) : RuleLine := ⟨layout.lhs, layout.bodies.map BodyLayout.names⟩

def text (layout : Layout) : List Char :=
  layout.indent ++ layout.lhs.text.toList ++ layout.gap ++ layout.arrow.text ++
    ['|'].intercalate (layout.bodies.map BodyLayout.text)

structure Valid (layout : Layout) : Prop where
  blanks_indent : Blanks layout.indent
  isLeftSideChar : ∀ c ∈ layout.lhs.text.toList, isLeftSideChar c
  blanks_gap : Blanks layout.gap
  bodies_ne_nil : layout.bodies ≠ []
  valid : ∀ body ∈ layout.bodies, body.Valid

end Layout

end RuleLine

end ContextFree

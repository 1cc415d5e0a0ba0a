import ContextFree.Text.CodePoint

/-!
# White space

Two classes of characters separate things in a text. **White space** is the Unicode property
`White_Space`: it decides which lines count as empty, ends a symbol of a rule, and separates the
symbols of a word given on the command line. A **blank** is one of the two characters, space and
tab, that may stand between the parts of a rule. Every blank is white space.
-/

namespace ContextFree

namespace Text

def whiteSpace : Ranges :=
  [(0x0009, 0x000D), (0x0020, 0x0020), (0x0085, 0x0085), (0x00A0, 0x00A0), (0x1680, 0x1680),
    (0x2000, 0x200A), (0x2028, 0x2029), (0x202F, 0x202F), (0x205F, 0x205F), (0x3000, 0x3000)]

def isWhiteSpace (c : Char) : Bool := whiteSpace.covers c

def isBlank (c : Char) : Bool := c = ' ' || c = '\t'

theorem isWhiteSpace_of_isBlank {c : Char} (h : isBlank c) : isWhiteSpace c := by
  simp only [isBlank, Bool.or_eq_true, decide_eq_true_eq] at h
  rcases h with rfl | rfl <;> decide

end Text

end ContextFree

import ContextFree.Name

/-!
# How words are written

A word is a list of symbols, and it is written by the names of its symbols. Names of one
character stand back to back (`aBc`); as soon as one name is longer, all of them are set apart
by blanks (`a Z12 c`), so that it stays visible where a symbol ends. The empty word has a sign
of its own, `ε`.

Different words can be written alike: the name `ab` on its own and the two names `a`, `b` both
read `ab`, and a symbol called `ε` looks like the empty word.
-/

namespace ContextFree

def emptySign : String := "ε"

def noneSign : String := "∅"

/-- The text of a word, given by the names of its symbols. -/
def spell (names : List String) : String :=
  if names = [] then emptySign
  else if names.all (·.length = 1) then String.join names
  else " ".intercalate names

/-- The texts of a collection, in order and with a separator between them. -/
def enumerate (separator : String) (texts : List String) : String :=
  if texts = [] then noneSign else separator.intercalate texts

def commaList (names : List Name) : String := ", ".intercalate (names.map (·.text))

@[simp] theorem spell_nil : spell [] = emptySign := rfl

@[simp] theorem enumerate_nil (separator : String) : enumerate separator [] = noneSign := rfl

end ContextFree

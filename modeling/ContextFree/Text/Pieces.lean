import ContextFree.Name

/-!
# Cutting a text

A text is cut into lines, and a stretch of text into words. A **line** ends at a line feed; a
carriage return right before that line feed belongs to the line's end. The text after the last
line feed is a line of its own unless it is empty, and keeps a carriage return. The **words** of
a stretch are its longest pieces without a separator in them; a word is never empty, so it is a
name.
-/

namespace ContextFree

namespace Text

/-- A line without the carriage return at its end, if there is one. -/
def dropReturn (line : List Char) : List Char :=
  if line.getLast? = some '\r' then line.dropLast else line

def lines (text : List Char) : List (List Char) :=
  let pieces := text.splitOnP (· = '\n')
  let ended := pieces.dropLast.map dropReturn
  match pieces.getLastD [] with
  | [] => ended
  | last => ended ++ [last]

def words (separates : Char → Bool) (text : List Char) : List Name :=
  (text.splitOnP separates).filterMap Name.ofChars?

/-- The number of bytes of a text in UTF-8. -/
def byteSize (text : List Char) : Nat := text.foldr (fun c n => c.utf8Size + n) 0

end Text

end ContextFree

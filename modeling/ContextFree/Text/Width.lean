import ContextFree.Text.Ligature

/-!
# The width of a line

How many columns a line of text takes up on a terminal. That is the sum over its characters, save
where several of them are shown as one sign: an emoji with what belongs to it, a quotation mark
with a selector for its form, the letters of a ligature, and the vowels of Kirat Rai that stand
for another one. So a line is taken in from right to left, and a `Scan` knows, beside the columns
so far, what stands `Ahead` that the next character on the left may join.
-/

namespace ContextFree

namespace Text

/-- How a character may be asked to look. -/
inductive Look where
  | text
  | emoji
  | wide
deriving DecidableEq

def Look.ofSelector? (c : Char) : Option Look :=
  if c = textSelector then some .text
  else if c = emojiSelector then some .emoji
  else if c = wideSelector then some .wide
  else none

/-- What stands to the right of the next character, as far as the character may join it. -/
inductive Ahead where
  | nothing
  | selector (look : Look)
  /-- The end of a possible ligature, perhaps with a selector in front of it. -/
  | ending (part : Ending) (look : Option Look)
  | modifier
  | indicator
  | indicators
  | emoji
  | joined
  | keycapJoined
  /-- The selector for emoji, perhaps a keycap, a joiner and an emoji. -/
  | selectorJoined
  | indicatorJoined
  /-- An even number of regional indicators, a joiner and an emoji. -/
  | evenIndicatorsJoined
  /-- An odd number of regional indicators, a joiner and an emoji. -/
  | oddIndicatorsJoined
  /-- Tags of digits, tags of letters and the end tag, a joiner and an emoji. -/
  | tagsJoined (digits letters : Nat)
  /-- The vowel e of Kirat Rai. -/
  | vowelE
  /-- The vowel ai of Kirat Rai, or two vowels e in its place. -/
  | vowelAi
deriving DecidableEq

namespace Ahead

def ofChar (c : Char) : Ahead :=
  if isIndicator c then .indicator
  else if isModifier c then .modifier
  else if isEmoji c then .emoji
  else if c.toNat = 0x16D67 then .vowelE
  else if c.toNat = 0x16D68 then .vowelAi
  else match Ending.ofChar? c with
    | some part => .ending part none
    | none => .nothing

/-- The look that is asked for by a selector right ahead. -/
def look? : Ahead → Option Look
  | selector look => some look
  | ending _ look => look
  | selectorJoined => some .emoji
  | _ => none

/-- What stands ahead if nothing has heeded the selector. An ending stays, since a selector does
not come between the letters of a ligature. -/
def withoutLook : Ahead → Ahead
  | ending part _ => .ending part none
  | selector _ | selectorJoined => .nothing
  | ahead => ahead

/-- What stands ahead with a selector in front of it. -/
def withLook (look : Look) : Ahead → Ahead
  | ending part _ => .ending part (some look)
  | joined | keycapJoined => if look = .emoji then .selectorJoined else .selector look
  | _ => .selector look

/-- Whether a joiner makes one emoji of what stands ahead and an emoji on its left. -/
def isJoinable (ahead : Ahead) : Bool :=
  ahead ∈ [.emoji, .modifier, .indicators, .evenIndicatorsJoined, .oddIndicatorsJoined]

end Ahead

/-- What is known of the right part of a line: its columns, and what the next character on the
left may join. -/
structure Scan where
  columns : Nat
  ahead : Ahead

namespace Scan

/-- The character with what stands ahead, if it joins that. -/
def join? (c : Char) (scan : Scan) : Option Scan :=
  let n := scan.columns
  if c = joiner && scan.ahead.isJoinable then some ⟨n, .joined⟩
  else match scan.ahead with
    | .ending part _ =>
      match part.extend? c with
      | some (.complete surplus) => some ⟨n - surplus, .nothing⟩
      | some (.continued part columns) => some ⟨n + columns, .ending part none⟩
      | none => none
    | .modifier => if takesModifier c then some ⟨n, .emoji⟩ else none
    | .indicator | .indicators => if isIndicator c then some ⟨n + 1, .indicators⟩ else none
    | .joined =>
      if c = keycap then some ⟨n, .keycapJoined⟩
      else if isIndicator c then some ⟨n + 1, .indicatorJoined⟩
      else if isModifier c then some ⟨n, .modifier⟩
      else if c = endTag then some ⟨n, .tagsJoined 0 0⟩
      else if isEmoji c then some ⟨n, .emoji⟩
      else none
    -- a flag adds no column to the emoji that it is joined with
    | .indicatorJoined | .oddIndicatorsJoined =>
      if isIndicator c then some ⟨n - 1, .evenIndicatorsJoined⟩ else none
    -- a further indicator leaves one of them alone with the emoji, and the others are a flag
    | .evenIndicatorsJoined =>
      if isIndicator c then some ⟨n + 3, .oddIndicatorsJoined⟩ else none
    | .tagsJoined digits letters =>
      if isLetterTag c && digits = 0 && letters < 6 then
        some ⟨n, .tagsJoined 0 (letters + 1)⟩
      else if isDigitTag c && digits < 3 && letters < 5 then
        some ⟨n, .tagsJoined (digits + 1) letters⟩
      else if c = blackFlag && (digits = 3 || digits = 0 && 3 ≤ letters) then some ⟨n, .emoji⟩
      else none
    | .vowelE =>
      match c.toNat with
      | 0x16D63 | 0x16D69 => some ⟨n, .nothing⟩
      | 0x16D67 => some ⟨n, .vowelAi⟩
      | 0x16D68 => some ⟨n + 1, .vowelE⟩
      | _ => none
    | .vowelAi => if c.toNat = 0x16D63 then some ⟨n, .nothing⟩ else none
    | _ => none

/-- Takes in the next character on the left. A character that is asked to look like an emoji has
two columns then, or none if it is joined with another emoji. -/
def push (c : Char) (scan : Scan) : Scan :=
  let look := scan.ahead.look?
  if look = some .emoji && takesEmojiLook c then
    ⟨scan.columns + (if scan.ahead = .selectorJoined then 0 else 2), .emoji⟩
  else if look = some .text && takesTextLook c then ⟨scan.columns + 1, .nothing⟩
  else if look = some .wide && takesWideLook c then ⟨scan.columns + 2, .nothing⟩
  else if c.toNat ≤ 0xA0 then ⟨scan.columns + 1, .nothing⟩
  else
    let rest : Scan := ⟨scan.columns, scan.ahead.withoutLook⟩
    match Look.ofSelector? c with
    | some look => ⟨rest.columns, rest.ahead.withLook look⟩
    | none => (rest.join? c).getD ⟨rest.columns + charWidth c, .ofChar c⟩

end Scan

def width (line : String) : Nat := (line.toList.foldr Scan.push ⟨0, .nothing⟩).columns

end Text

end ContextFree

import ContextFree.Text.CharWidth
import ContextFree.Text.Emoji

/-!
# Ligatures

In some scripts two or three letters are written as one sign, which then takes up a single column.
A ligature is looked for from its end: `Ending` tells which letters have been met so far, from
right to left, and `Ending.extend?` whether the next one to the left belongs to the same ligature.
Where a ligature needs a joiner between its letters, `joined` tells whether it has been met.
-/

namespace ContextFree

namespace Text

def alefs : Ranges :=
  [(0x0622, 0x0623), (0x0625, 0x0625), (0x0627, 0x0627), (0x0671, 0x0673), (0x0675, 0x0675),
    (0x0773, 0x0774), (0x0870, 0x0882)]

def lams : Ranges :=
  [(0x0644, 0x0644), (0x06B5, 0x06B8), (0x076A, 0x076A), (0x08A6, 0x08A6), (0x08C7, 0x08C7)]

/-- The letters of Khmer that can be written below another one. -/
def khmerSubscripts : Ranges :=
  [(0x1780, 0x1782), (0x1784, 0x1787), (0x1789, 0x178C), (0x178E, 0x1793), (0x1795, 0x1798),
    (0x179B, 0x179D), (0x17A0, 0x17A0), (0x17A2, 0x17A2), (0x17A7, 0x17A7), (0x17AB, 0x17AC),
    (0x17AF, 0x17AF)]

def tifinaghConsonants : Ranges :=
  [(0x2D31, 0x2D65), (0x2D6F, 0x2D6F)]

/-- The mark that joins two consonants of Tifinagh. -/
def tifinaghJoiner : Char := Char.ofNat 0x2D7F

/-- The combining marks that are ignored by default. They may stand inside a ligature. -/
def ignoredMarks : Ranges :=
  [(0x034F, 0x034F), (0x17B4, 0x17B5), (0x180B, 0x180D), (0x180F, 0x180F), (0xFE00, 0xFE0F),
    (0xE0100, 0xE01EF)]

/-- The code points without a column that Arabic letters do not join across. -/
def joiningBreaks : Ranges :=
  [(0x0605, 0x0605), (0x0890, 0x0891), (0x08E2, 0x08E2), (0x09BE, 0x09BE), (0x09D7, 0x09D7),
    (0x0B3E, 0x0B3E), (0x0B57, 0x0B57), (0x0BBE, 0x0BBE), (0x0BD7, 0x0BD7), (0x0CC0, 0x0CC0),
    (0x0CC2, 0x0CC2), (0x0CC7, 0x0CC8), (0x0CCA, 0x0CCB), (0x0CD5, 0x0CD6), (0x0D3E, 0x0D3E),
    (0x0D4E, 0x0D4E), (0x0D57, 0x0D57), (0x0DCF, 0x0DCF), (0x0DDF, 0x0DDF), (0x1160, 0x11FF),
    (0x1715, 0x1715), (0x1734, 0x1734), (0x180E, 0x180E), (0x1B35, 0x1B35), (0x1B3B, 0x1B3B),
    (0x1B3D, 0x1B3D), (0x1B43, 0x1B44), (0x1BAA, 0x1BAA), (0x1BF2, 0x1BF3), (0x200C, 0x200D),
    (0x2065, 0x2069), (0x302E, 0x302F), (0x3164, 0x3164), (0xA8FA, 0xA8FA), (0xA953, 0xA953),
    (0xA9C0, 0xA9C0), (0xD7B0, 0xD7C6), (0xD7CB, 0xD7FB), (0xFFA0, 0xFFA0), (0xFFF0, 0xFFF8),
    (0x111C0, 0x111C0), (0x111C2, 0x111C3), (0x11235, 0x11235), (0x1133E, 0x1133E),
    (0x1134D, 0x1134D), (0x11357, 0x11357), (0x113B8, 0x113B8), (0x113C2, 0x113C2),
    (0x113C5, 0x113C5), (0x113C7, 0x113C9), (0x113CF, 0x113CF), (0x113D1, 0x113D1),
    (0x114B0, 0x114B0), (0x114BD, 0x114BD), (0x115AF, 0x115AF), (0x116B6, 0x116B6),
    (0x11930, 0x11930), (0x1193D, 0x1193D), (0x1193F, 0x1193F), (0x11941, 0x11941),
    (0x11A84, 0x11A89), (0x11D46, 0x11D46), (0x11F02, 0x11F02), (0x11F41, 0x11F41),
    (0x16FF0, 0x16FF1), (0x1D165, 0x1D166), (0x1D16D, 0x1D172), (0xE0000, 0xE0000),
    (0xE0002, 0xE001F), (0xE0080, 0xE00FF), (0xE01F0, 0xE0FFF)]

/-- Whether two Arabic letters on either side of the character join all the same. -/
def isJoinedAcross (c : Char) : Bool := charWidth c = 0 && !joiningBreaks.covers c

/-- The end of a possible ligature, as far as it has been met from right to left. -/
inductive Ending where
  /-- Arabic alef, which makes one sign with a lam. -/
  | alef
  /-- Hebrew lamed, which makes one sign with an alef. -/
  | lamed (joined : Bool)
  /-- Buginese ya, which makes one sign with an a and its vowel i. -/
  | ya (joined : Bool)
  /-- The vowel i, a joiner and ya of Buginese. -/
  | vowelYa
  /-- A consonant of Tifinagh, which makes one sign with another one. -/
  | tifinagh (joined : Bool)
  /-- The joining mark and a consonant of Tifinagh. -/
  | markedTifinagh
  /-- The second part of a Lisu tone letter. -/
  | lisuTone
  /-- Old Turkic i, which makes one sign with ec. -/
  | turkicI (joined : Bool)
  /-- A letter of Khmer, which is written below another one after the sign for that. -/
  | khmer
deriving DecidableEq

namespace Ending

def ofChar? (c : Char) : Option Ending :=
  if alefs.covers c then some .alef
  else if khmerSubscripts.covers c then some .khmer
  else if tifinaghConsonants.covers c then some (.tifinagh false)
  else match c.toNat with
    | 0x05DC => some (.lamed false)
    | 0x1A10 => some (.ya false)
    | 0xA4FC | 0xA4FD => some .lisuTone
    | 0x10C03 => some (.turkicI false)
    | _ => none

def afterJoiner : Ending → Ending
  | lamed _ => .lamed true
  | ya _ => .ya true
  | tifinagh _ => .tifinagh true
  | turkicI _ => .turkicI true
  | ending => ending

/-- What a further character on the left does to the columns of an ending, and to the ending. -/
inductive Extension where
  /-- The ligature is complete. The new columns are those that were counted for the ending, less
  the given number. -/
  | complete (surplus : Nat)
  /-- The ligature goes on, with some more columns. -/
  | continued (ending : Ending) (columns : Nat)

/-- How a further character on the left extends the ending, if it belongs to the ligature. -/
def extend? (c : Char) : Ending → Option Extension
  | alef =>
    if lams.covers c then some (.complete 0)
    else if isJoinedAcross c then some (.continued .alef 0)
    else none
  | ending =>
    if c = joiner then some (.continued ending.afterJoiner 0)
    else if ignoredMarks.covers c then some (.continued ending 0)
    else match ending with
      | lamed true => if c.toNat = 0x05D0 then some (.complete 0) else none
      | ya true => if c.toNat = 0x1A17 then some (.continued .vowelYa 0) else none
      | vowelYa => if c.toNat = 0x1A15 then some (.complete 0) else none
      | tifinagh joined =>
        if c = tifinaghJoiner then some (.continued .markedTifinagh 1)
        else if joined && tifinaghConsonants.covers c then some (.complete 0)
        else none
      | markedTifinagh => if tifinaghConsonants.covers c then some (.complete 1) else none
      | lisuTone => if 0xA4F8 ≤ c.toNat ∧ c.toNat ≤ 0xA4FB then some (.complete 0) else none
      | turkicI true => if c.toNat = 0x10C32 then some (.complete 0) else none
      | khmer => if c.toNat = 0x17D2 then some (.complete 1) else none
      | _ => none

end Ending

end Text

end ContextFree

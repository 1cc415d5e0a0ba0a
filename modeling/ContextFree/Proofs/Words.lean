import ContextFree.Text.Alphanumeric
import ContextFree.Text.Blank
import ContextFree.Text.Pieces
import Mathlib.Data.List.Basic

/-!
# Stretches and words

Texts are read stretch by stretch: as long as the characters belong to a class, and no further. A
stretch ends where the text that follows it `Stops` the class, by beginning with another character
or by being empty. Where that is so, the stretch and what follows it are found again
(`Text.Stops.takeWhile_append`, `Text.Stops.dropWhile_append`), so that a text can be divided in
this way in no more than one manner (`Text.Stops.append_inj`).

The words of a text are cut out at separators. All that is said of them comes from one equation, for
a separator somewhere in the text (`Text.words_append_cons`): separators in front do not count
(`Text.words_append`), and a name at the beginning is the first word if something that separates
follows, or nothing (`Text.words_name_append`).
-/

namespace ContextFree

namespace Text

variable {p q : Char → Bool} {stretch rest : List Char}

/-! ### Stretches -/

/-- A text begins with no character of the class, so that a stretch of the class in front of it ends
where the text begins. -/
def Stops (p : Char → Bool) (text : List Char) : Prop := ∀ c ∈ text.head?, p c = false

theorem stops_nil (p : Char → Bool) : Stops p [] := nofun

theorem stops_cons_iff {c : Char} : Stops p (c :: rest) ↔ p c = false := by
  constructor
  · intro stops
    exact stops c rfl
  · intro other d begins
    cases begins
    exact other

/-- What is left when a stretch has been taken away begins with no character of its class. -/
theorem stops_dropWhile (p : Char → Bool) (text : List Char) : Stops p (text.dropWhile p) := by
  intro c begins
  have first := List.head?_dropWhile_not p text
  rw [Option.mem_def.mp begins] at first
  exact first

/-- A stretch that is not empty stops a class to which its characters do not belong. -/
theorem stops_append (other : ∀ c ∈ stretch, p c = false) (nonempty : stretch ≠ [])
    (rest : List Char) : Stops p (stretch ++ rest) := by
  cases stretch with
  | nil => exact absurd rfl nonempty
  | cons c cs => exact stops_cons_iff.mpr (other c List.mem_cons_self)

/-- A class that is stopped after a stretch of other characters is stopped before it. -/
theorem Stops.append (stops : Stops p rest) (other : ∀ c ∈ stretch, p c = false) :
    Stops p (stretch ++ rest) := by
  cases stretch with
  | nil => exact stops
  | cons c cs => exact stops_cons_iff.mpr (other c List.mem_cons_self)

/-- Fewer characters are stopped all the more. -/
theorem Stops.mono (stops : Stops p rest) (fewer : ∀ c, q c → p c) : Stops q rest := by
  intro c begins
  have out := stops c begins
  cases member : q c with
  | false => rfl
  | true =>
    rw [fewer c member] at out
    exact out

theorem Stops.takeWhile_append (stops : Stops p rest) (within : ∀ c ∈ stretch, p c) :
    (stretch ++ rest).takeWhile p = stretch := by
  rw [List.takeWhile_append_of_pos within]
  have none : rest.takeWhile p = [] := by
    cases rest with
    | nil => rfl
    | cons c cs => exact List.takeWhile_cons_of_neg (by simp [stops_cons_iff.mp stops])
  rw [none, List.append_nil]

theorem Stops.dropWhile_append (stops : Stops p rest) (within : ∀ c ∈ stretch, p c) :
    (stretch ++ rest).dropWhile p = rest := by
  rw [List.dropWhile_append_of_pos within]
  cases rest with
  | nil => rfl
  | cons c cs => exact List.dropWhile_cons_of_neg (by simp [stops_cons_iff.mp stops])

/-- **A text is divided in one manner only** into a stretch and something that stops it. -/
theorem Stops.append_inj {other after : List Char} (stops : Stops p rest)
    (stopsOther : Stops p after) (within : ∀ c ∈ stretch, p c)
    (withinOther : ∀ c ∈ other, p c) (same : stretch ++ rest = other ++ after) :
    stretch = other ∧ rest = after := by
  have front : stretch = other := by
    rw [← stops.takeWhile_append within, same, stopsOther.takeWhile_append withinOther]
  refine ⟨front, ?_⟩
  rw [front] at same
  exact List.append_cancel_left same

/-! ### Classes -/

/-- A class tells its own characters from any other. -/
theorem ne_of_apart {c d : Char} (within : p c) (other : p d = false) : c ≠ d := by
  rintro rfl
  rw [within] at other
  cases other

/-- If being in one class keeps a character out of another, being in the other keeps it out of the
one. -/
theorem eq_false_of_apart {one other : Bool} (apart : one → other = false) (within : other) :
    one = false := by
  by_contra both
  rw [Bool.not_eq_false] at both
  rw [apart both] at within
  cases within

/-- Two classes share no character if all ranges of the one lie beside all ranges of the other. -/
theorem not_covers_of_apart {these those : Ranges}
    (apart : ∀ r ∈ these, ∀ s ∈ those, r.2 < s.1 ∨ s.2 < r.1) {c : Char} (covers : these.covers c) :
    those.covers c = false := by
  rw [Ranges.covers, List.any_eq_true] at covers
  obtain ⟨r, hr, within⟩ := covers
  simp only [Bool.and_eq_true, decide_eq_true_eq] at within
  rw [Ranges.covers, List.any_eq_false]
  intro s hs
  have beside := apart r hr s hs
  simp only [Bool.and_eq_true, decide_eq_true_eq]
  omega

/-- White space is no letter and no number. -/
theorem isAlphanumeric_of_isWhiteSpace {c : Char} (space : isWhiteSpace c) :
    isAlphanumeric c = false :=
  not_covers_of_apart (by decide +kernel) space

/-! ### Words -/

theorem words_nil (p : Char → Bool) : words p [] = [] := by
  rw [words, List.splitOnP_nil]
  rfl

/-- **A separator parts the words** before it from those after it. -/
theorem words_append_cons {c : Char} (separates : p c) (before after : List Char) :
    words p (before ++ c :: after) = words p before ++ words p after := by
  rw [words, List.splitOnP_append_cons before after separates, List.filterMap_append]
  rfl

theorem words_cons {c : Char} (separates : p c) (text : List Char) :
    words p (c :: text) = words p text := by
  have parted := words_append_cons separates [] text
  rwa [words_nil] at parted

/-- Separators in front of a text do not change its words. -/
theorem words_append (separate : ∀ c ∈ stretch, p c) (text : List Char) :
    words p (stretch ++ text) = words p text := by
  induction stretch with
  | nil => rfl
  | cons c cs ih =>
    rw [List.cons_append, words_cons (separate c List.mem_cons_self)]
    exact ih fun d mem => separate d (List.mem_cons_of_mem c mem)

theorem words_eq_nil (separate : ∀ c ∈ stretch, p c) : words p stretch = [] := by
  have none := words_append separate []
  rwa [List.append_nil, words_nil] at none

/-- A name without separators is a word of its own. -/
theorem words_name {a : Name} (whole : ∀ c ∈ a.text.toList, p c = false) :
    words p a.text.toList = [a] := by
  rw [words, List.splitOnP_eq_singleton whole, List.filterMap_cons_some
    (Name.ofChars?_eq_some_iff.mpr rfl), List.filterMap_nil]

/-- A name in front of a text is the first word, if the text is empty or begins with a separator. -/
theorem words_name_append {a : Name} (whole : ∀ c ∈ a.text.toList, p c = false)
    (stops : Stops (!p ·) rest) : words p (a.text.toList ++ rest) = a :: words p rest := by
  cases rest with
  | nil => rw [List.append_nil, words_name whole, words_nil]
  | cons c cs =>
    have separates : p c := by simpa using stops_cons_iff.mp stops
    rw [words_append_cons separates, words_name whole, words_cons separates]
    rfl

end Text

end ContextFree

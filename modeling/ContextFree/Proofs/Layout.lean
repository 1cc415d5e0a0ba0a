import ContextFree.FirstFailure
import ContextFree.Proofs.Words
import ContextFree.RuleLine.Layout
import Mathlib.Data.List.TakeWhile

/-!
# Lines are read by their layout

A line is read from left to right, and each part takes as much as it can. Nothing is lost by this: a
line can be read if and only if it is laid out as a rule, and what is read are the parts of the
layout (`RuleLine.parse_eq_ok_iff`). The reason is that each part is stopped by the one after it. A
left-hand side has no blanks in it and none of the characters with which an arrow begins; a symbol
has no blanks and no bars in it, and a body has no bars. For the same reason a line is laid out in
one way only (`RuleLine.Layout.Valid.eq_of_text_eq`), although a symbol may contain an arrow.

From the inside to the outside:

* `BodyLayout.Fits` — what is demanded of a body, except that it may have no symbols. Any text of
  blanks and symbols is that of one such body (`BodyLayout.exists_fits`), of one only
  (`BodyLayout.Fits.eq_of_text_eq`), and its symbols are the words of the text
  (`BodyLayout.Fits.words_text`).
* `RuleLine.parseBodies_eq_ok_iff` — bodies with bars between them.
* `RuleLine.parse_front` — the left-hand side and the arrow.

Since every character of a layout is one of its parts, a line with any other character is refused
(`RuleLine.Layout.Valid.isRuleChar`), and so is one with nothing but blanks where a body should be
(`RuleLine.not_blanks_of_parseBodies`).
-/

namespace ContextFree

namespace RuleLine

open Text

/-! ### Characters -/

theorem isSymbolChar_of_isBlank {c : Char} (blank : isBlank c) : isSymbolChar c = false := by
  rw [isSymbolChar, isWhiteSpace_of_isBlank blank]
  rfl

theorem isBlank_of_isSymbolChar {c : Char} (symbol : isSymbolChar c) : isBlank c = false :=
  eq_false_of_apart isSymbolChar_of_isBlank symbol

/-- White space, and hence a blank, does not belong to a left-hand side. -/
theorem isLeftSideChar_of_isWhiteSpace {c : Char} (space : isWhiteSpace c) :
    isLeftSideChar c = false := by
  have underscore : c ≠ '_' := ne_of_apart space (by decide)
  have apostrophe : c ≠ '\'' := ne_of_apart space (by decide)
  simp [isLeftSideChar, isAlphanumeric_of_isWhiteSpace space, underscore, apostrophe]

theorem isBlank_of_isLeftSideChar {c : Char} (left : isLeftSideChar c) : isBlank c = false :=
  eq_false_of_apart
    (fun blank => isLeftSideChar_of_isWhiteSpace (isWhiteSpace_of_isBlank blank)) left

theorem isBodyChar_of_isBlank {c : Char} (blank : isBlank c) : isBodyChar c := by
  simp [isBodyChar, blank]

theorem isBodyChar_of_isSymbolChar {c : Char} (symbol : isSymbolChar c) : isBodyChar c := by
  simp [isBodyChar, symbol]

theorem isSymbolChar_of_isBodyChar {c : Char} (body : isBodyChar c) (other : isBlank c = false) :
    isSymbolChar c := by
  simpa [isBodyChar, other] using body

/-- A bar ends a body. -/
theorem isBodyChar_bar : isBodyChar '|' = false := by decide

/-- A character that may stand in the line of a rule: it is not the sign of a comment, and if it is
white space, it is a blank. -/
def IsRuleChar (c : Char) : Prop := c ≠ '#' ∧ (isWhiteSpace c → isBlank c)

instance : DecidablePred IsRuleChar := fun _ => inferInstanceAs (Decidable (_ ∧ _))

theorem isRuleChar_of_isBlank {c : Char} (blank : isBlank c) : IsRuleChar c :=
  ⟨ne_of_apart blank (by decide), fun _ => blank⟩

/-- A character that is not white space may stand there if it is not the sign of a comment. -/
theorem isRuleChar_of_ne {c : Char} (visible : isWhiteSpace c = false) (other : c ≠ '#') :
    IsRuleChar c := by
  refine ⟨other, fun space => ?_⟩
  rw [visible] at space
  cases space

theorem isRuleChar_of_isLeftSideChar {c : Char} (left : isLeftSideChar c) : IsRuleChar c := by
  have visible : isWhiteSpace c = false := eq_false_of_apart isLeftSideChar_of_isWhiteSpace left
  exact isRuleChar_of_ne visible (ne_of_apart left (by decide +kernel))

theorem isRuleChar_of_isBodyChar {c : Char} (body : isBodyChar c) : IsRuleChar c := by
  by_cases blank : isBlank c
  · exact isRuleChar_of_isBlank blank
  · have symbol := isSymbolChar_of_isBodyChar body (by simpa using blank)
    simp only [isSymbolChar, Bool.and_eq_true, Bool.not_eq_true', decide_eq_true_eq] at symbol
    obtain ⟨⟨visible, -⟩, other⟩ := symbol
    exact isRuleChar_of_ne visible other

theorem isRuleChar_arrow (arrow : Arrow) : ∀ c ∈ arrow.text, IsRuleChar c := by
  cases arrow with
  | sign => exact List.forall_mem_singleton.mpr (by decide)
  | letters =>
    exact List.forall_mem_cons.mpr ⟨by decide, List.forall_mem_singleton.mpr (by decide)⟩

/-! ### Bodies -/

namespace BodyLayout

variable {body other : BodyLayout} {gap trail : List Char} {a : Name}
  {symbols : List (List Char × Name)}

/-- The body is laid out as it should be, except that it may have no symbols. -/
structure Fits (body : BodyLayout) : Prop where
  isSymbolChar : ∀ s ∈ body.symbols, ∀ c ∈ s.2.text.toList, isSymbolChar c
  blanks : ∀ s ∈ body.symbols, Blanks s.1
  apart : ∀ s ∈ body.symbols.tail, s.1 ≠ []
  blanks_trail : Blanks body.trail

theorem Valid.fits (valid : body.Valid) : body.Fits :=
  ⟨valid.isSymbolChar, valid.blanks, valid.apart, valid.blanks_trail⟩

theorem Fits.valid (fits : body.Fits) (nonempty : body.symbols ≠ []) : body.Valid :=
  ⟨nonempty, fits.isSymbolChar, fits.blanks, fits.apart, fits.blanks_trail⟩

theorem text_cons (gap : List Char) (a : Name) (symbols : List (List Char × Name))
    (trail : List Char) :
    (⟨(gap, a) :: symbols, trail⟩ : BodyLayout).text
      = gap ++ (a.text.toList ++ (⟨symbols, trail⟩ : BodyLayout).text) := by
  simp only [text, List.flatMap_cons, List.append_assoc]

theorem names_cons (gap : List Char) (a : Name) (symbols : List (List Char × Name))
    (trail : List Char) :
    (⟨(gap, a) :: symbols, trail⟩ : BodyLayout).names
      = a :: (⟨symbols, trail⟩ : BodyLayout).names := rfl

/-- What a body has after its first symbol fits as well, and its symbols are set apart. -/
theorem Fits.tail (fits : (⟨(gap, a) :: symbols, trail⟩ : BodyLayout).Fits) :
    (⟨symbols, trail⟩ : BodyLayout).Fits ∧ ∀ s ∈ symbols, s.1 ≠ [] := by
  refine ⟨⟨?_, ?_, ?_, fits.blanks_trail⟩, fits.apart⟩
  · exact fun s mem => fits.isSymbolChar s (List.mem_cons_of_mem _ mem)
  · exact fun s mem => fits.blanks s (List.mem_cons_of_mem _ mem)
  · exact fun s mem => fits.apart s (List.mem_of_mem_tail mem)

theorem Fits.cons (fits : (⟨symbols, trail⟩ : BodyLayout).Fits) (apart : ∀ s ∈ symbols, s.1 ≠ [])
    (blanks : Blanks gap) (name : ∀ c ∈ a.text.toList, RuleLine.isSymbolChar c) :
    (⟨(gap, a) :: symbols, trail⟩ : BodyLayout).Fits where
  isSymbolChar := List.forall_mem_cons.mpr ⟨name, fits.isSymbolChar⟩
  blanks := List.forall_mem_cons.mpr ⟨blanks, fits.blanks⟩
  apart := apart
  blanks_trail := fits.blanks_trail

/-- A name stops the blanks before it. -/
theorem stops_isBlank_name (name : ∀ c ∈ a.text.toList, RuleLine.isSymbolChar c)
    (rest : List Char) : Stops isBlank (a.text.toList ++ rest) :=
  stops_append (fun c mem => isBlank_of_isSymbolChar (name c mem)) a.toList_text_ne_nil rest

/-- A body in which all symbols have blanks before them begins with a blank or is empty. -/
theorem Fits.stops_nonblank (fits : body.Fits) (apart : ∀ s ∈ body.symbols, s.1 ≠ []) :
    Stops (!isBlank ·) body.text := by
  obtain ⟨symbols, trail⟩ := body
  cases symbols with
  | nil =>
    intro c begins
    simp [fits.blanks_trail c (List.mem_of_mem_head? begins)]
  | cons s symbols =>
    obtain ⟨gap, a⟩ := s
    rw [text_cons]
    refine stops_append ?_ (apart (gap, a) List.mem_cons_self) _
    intro c mem
    simp [fits.blanks (gap, a) List.mem_cons_self c mem]

/-- Hence it stops the symbol before it. -/
theorem Fits.stops_isSymbolChar (fits : body.Fits) (apart : ∀ s ∈ body.symbols, s.1 ≠ []) :
    Stops RuleLine.isSymbolChar body.text :=
  (fits.stops_nonblank apart).mono fun c symbol => by simp [isBlank_of_isSymbolChar symbol]

/-- Conversely, a body that stops a symbol before it has blanks before all its symbols. -/
theorem Fits.apart_of_stops (fits : body.Fits) (stops : Stops RuleLine.isSymbolChar body.text) :
    ∀ s ∈ body.symbols, s.1 ≠ [] := by
  obtain ⟨symbols, trail⟩ := body
  cases symbols with
  | nil => exact nofun
  | cons s symbols =>
    obtain ⟨gap, a⟩ := s
    intro t mem
    rcases List.mem_cons.mp mem with rfl | mem
    · -- without blanks before it, the first symbol would not stop the one before
      rintro rfl
      obtain ⟨c, cs, chars⟩ := List.exists_cons_of_ne_nil a.toList_text_ne_nil
      have symbol : RuleLine.isSymbolChar c :=
        fits.isSymbolChar _ List.mem_cons_self c (chars ▸ List.mem_cons_self)
      rw [text_cons, List.nil_append, chars, List.cons_append, stops_cons_iff, symbol] at stops
      cases stops
    · exact fits.tail.2 t mem

/-- **The symbols of a body are the words of its text.** -/
theorem Fits.words_text (fits : body.Fits) : words isBlank body.text = body.names := by
  obtain ⟨symbols, trail⟩ := body
  induction symbols with
  | nil => exact words_eq_nil fits.blanks_trail
  | cons s symbols ih =>
    obtain ⟨gap, a⟩ := s
    obtain ⟨rest, apart⟩ := fits.tail
    have name : ∀ c ∈ a.text.toList, isBlank c = false := by
      intro c mem
      exact isBlank_of_isSymbolChar (fits.isSymbolChar (gap, a) List.mem_cons_self c mem)
    rw [text_cons, words_append (fits.blanks (gap, a) List.mem_cons_self),
      words_name_append name (rest.stops_nonblank apart), ih rest, names_cons]

/-- A body has no characters but blanks and those of its symbols. -/
theorem Fits.isBodyChar (fits : body.Fits) : ∀ c ∈ body.text, RuleLine.isBodyChar c := by
  intro c mem
  rw [text, List.mem_append, List.mem_flatMap] at mem
  rcases mem with ⟨s, hs, mem⟩ | mem
  · rcases List.mem_append.mp mem with mem | mem
    · exact isBodyChar_of_isBlank (fits.blanks s hs c mem)
    · exact isBodyChar_of_isSymbolChar (fits.isSymbolChar s hs c mem)
  · exact isBodyChar_of_isBlank (fits.blanks_trail c mem)

/-- **A body is laid out in one way only.** -/
theorem Fits.eq_of_text_eq (fits : body.Fits) (fitsOther : other.Fits)
    (same : body.text = other.text) : body = other := by
  obtain ⟨symbols, trail⟩ := body
  obtain ⟨others, trailOther⟩ := other
  -- the same words, so there are as many symbols in both
  have length : symbols.length = others.length := by
    have names : BodyLayout.names ⟨symbols, trail⟩ = BodyLayout.names ⟨others, trailOther⟩ := by
      rw [← fits.words_text, same, fitsOther.words_text]
    simpa [BodyLayout.names] using congrArg List.length names
  induction symbols generalizing others with
  | nil =>
    obtain rfl : others = [] := List.eq_nil_of_length_eq_zero length.symm
    exact congrArg _ same
  | cons s symbols ih =>
    cases others with
    | nil => cases length
    | cons t others =>
      obtain ⟨gap, a⟩ := s
      obtain ⟨space, b⟩ := t
      obtain ⟨rest, apart⟩ := fits.tail
      obtain ⟨restOther, apartOther⟩ := fitsOther.tail
      have name := fits.isSymbolChar (gap, a) List.mem_cons_self
      have nameOther := fitsOther.isSymbolChar (space, b) List.mem_cons_self
      rw [text_cons, text_cons] at same
      -- the blanks end where the names begin, and the names end where the rest begins
      obtain ⟨rfl, afterBlanks⟩ := (stops_isBlank_name name _).append_inj
        (stops_isBlank_name nameOther _) (fits.blanks _ List.mem_cons_self)
        (fitsOther.blanks _ List.mem_cons_self) same
      obtain ⟨chars, afterName⟩ := (rest.stops_isSymbolChar apart).append_inj
        (restOther.stops_isSymbolChar apartOther) name nameOther afterBlanks
      obtain rfl : a = b := Name.ext (String.toList_injective chars)
      cases ih rest others restOther afterName (Nat.succ.inj length)
      rfl

theorem eq_of_map_text_eq {bodies others : List BodyLayout} (valid : ∀ body ∈ bodies, body.Valid)
    (validOthers : ∀ body ∈ others, body.Valid) (same : bodies.map text = others.map text) :
    bodies = others := by
  induction bodies generalizing others with
  | nil => exact (List.map_eq_nil_iff.mp same.symm).symm
  | cons body bodies ih =>
    cases others with
    | nil => cases same
    | cons other others =>
      obtain ⟨first, further⟩ := List.cons.inj same
      obtain ⟨validBody, valid⟩ := List.forall_mem_cons.mp valid
      obtain ⟨validOther, validOthers⟩ := List.forall_mem_cons.mp validOthers
      rw [validBody.fits.eq_of_text_eq validOther.fits first, ih valid validOthers further]

/-- A text that begins with a character of a symbol begins with a symbol, and the rest is
shorter. -/
theorem exists_symbol {c : Char} {cs : List Char} (symbol : RuleLine.isSymbolChar c) :
    ∃ a : Name, a.text.toList = (c :: cs).takeWhile RuleLine.isSymbolChar ∧
      ((c :: cs).dropWhile RuleLine.isSymbolChar).length < (c :: cs).length := by
  rw [List.takeWhile_cons_of_pos symbol, List.dropWhile_cons_of_pos symbol, List.length_cons]
  refine ⟨.ofCons c (cs.takeWhile RuleLine.isSymbolChar), String.toList_ofList, ?_⟩
  exact Nat.lt_succ_of_le (List.dropWhile_sublist _).length_le

/-- **Any text of blanks and symbols is that of a body**, perhaps of one without symbols. -/
theorem exists_fits {text : List Char} (chars : ∀ c ∈ text, RuleLine.isBodyChar c) :
    ∃ body : BodyLayout, body.Fits ∧ body.text = text := by
  -- a symbol is taken away, with the blanks before it, and the rest is shorter
  induction size : text.length using Nat.strongRecOn generalizing text with
  | ind n ih =>
    have blanks : Blanks (text.takeWhile isBlank) := fun c mem => List.mem_takeWhile_imp mem
    have whole : text.takeWhile isBlank ++ text.dropWhile isBlank = text :=
      List.takeWhile_append_dropWhile
    have within : ∀ c ∈ text.dropWhile isBlank, RuleLine.isBodyChar c :=
      fun c mem => chars c ((List.dropWhile_sublist _).subset mem)
    have stops := stops_dropWhile isBlank text
    have fewer : (text.dropWhile isBlank).length ≤ n := size ▸ (List.dropWhile_sublist _).length_le
    cases begins : text.dropWhile isBlank with
    | nil =>
      rw [begins, List.append_nil] at whole
      exact ⟨⟨[], text.takeWhile isBlank⟩, ⟨nofun, nofun, nofun, blanks⟩, whole⟩
    | cons c cs =>
      rw [begins] at within stops fewer whole
      have symbol : RuleLine.isSymbolChar c :=
        isSymbolChar_of_isBodyChar (within c List.mem_cons_self) (stops_cons_iff.mp stops)
      obtain ⟨a, spelled, shorter⟩ := @exists_symbol c cs symbol
      obtain ⟨⟨symbols, trail⟩, fits, rest⟩ := ih _ (Nat.lt_of_lt_of_le shorter fewer)
        (fun d mem => within d ((List.dropWhile_sublist _).subset mem)) rfl
      have apart := fits.apart_of_stops (rest ▸ stops_dropWhile RuleLine.isSymbolChar _)
      refine ⟨⟨(text.takeWhile isBlank, a) :: symbols, trail⟩, ?_, ?_⟩
      · refine fits.cons apart blanks ?_
        rw [spelled]
        exact fun d mem => List.mem_takeWhile_imp mem
      · rw [text_cons, rest, spelled, List.takeWhile_append_dropWhile, whole]

end BodyLayout

/-! ### Bodies between bars -/

/-- Bodies as they are set after a first one, each with a bar in front of it. -/
def barred (bodies : List BodyLayout) : List Char := bodies.flatMap fun body => '|' :: body.text

theorem barred_cons (body : BodyLayout) (bodies : List BodyLayout) :
    barred (body :: bodies) = '|' :: (body.text ++ barred bodies) := by
  rw [barred, List.flatMap_cons, List.cons_append]
  rfl

theorem intercalate_eq_barred (body : BodyLayout) (bodies : List BodyLayout) :
    ['|'].intercalate ((body :: bodies).map BodyLayout.text) = body.text ++ barred bodies := by
  induction bodies generalizing body with
  | nil => simp [barred]
  | cons next bodies ih =>
    rw [List.map_cons, List.map_cons, List.intercalate_cons_cons, ← List.map_cons, ih next,
      barred_cons, List.append_assoc, List.singleton_append]

/-- What follows a body ends it. -/
theorem stops_barred (bodies : List BodyLayout) : Stops isBodyChar (barred bodies) := by
  cases bodies with
  | nil => exact stops_nil _
  | cons body bodies =>
    rw [barred_cons]
    exact stops_cons_iff.mpr isBodyChar_bar

variable {body : BodyLayout} {bodies : List BodyLayout} {text rest unread : List Char}
  {names : List (List Name)}

/-- A body is read up to where it ends. -/
theorem firstBody_append (fits : body.Fits) (stops : Stops isBodyChar rest) :
    firstBody (body.text ++ rest) = body.names ∧ afterBody (body.text ++ rest) = rest := by
  constructor
  · rw [firstBody, stops.takeWhile_append fits.isBodyChar, fits.words_text]
  · exact stops.dropWhile_append fits.isBodyChar

/-- Wherever a body is looked for, there is one, perhaps one without symbols. -/
theorem exists_firstBody (text : List Char) :
    ∃ body : BodyLayout, body.Fits ∧ body.names = firstBody text ∧
      body.text ++ afterBody text = text := by
  have chars : ∀ c ∈ text.takeWhile isBodyChar, isBodyChar c :=
    fun c mem => List.mem_takeWhile_imp mem
  obtain ⟨body, fits, eq⟩ := BodyLayout.exists_fits chars
  refine ⟨body, fits, ?_, ?_⟩
  · rw [← fits.words_text, eq]
    rfl
  · rw [eq]
    exact List.takeWhile_append_dropWhile

/-- A body that is found is a body with symbols. -/
theorem exists_valid_firstBody {a : Name} {others : List Name}
    (found : firstBody text = a :: others) :
    ∃ body : BodyLayout, body.Valid ∧ body.names = a :: others ∧
      body.text ++ afterBody text = text := by
  obtain ⟨body, fits, eq, whole⟩ := exists_firstBody text
  refine ⟨body, fits.valid ?_, eq.trans found, whole⟩
  intro none
  rw [found, BodyLayout.names, none] at eq
  cases eq

theorem BodyLayout.Valid.names_ne_nil (valid : body.Valid) : body.names ≠ [] :=
  fun none => valid.symbols_ne_nil (List.map_eq_nil_iff.mp none)

/-- All bodies that follow are read. -/
theorem furtherBodies_barred (valid : ∀ body ∈ bodies, body.Valid) :
    furtherBodies (barred bodies) = (bodies.map BodyLayout.names, []) := by
  induction bodies with
  | nil => simp [barred, furtherBodies]
  | cons body bodies ih =>
    have head := valid body List.mem_cons_self
    obtain ⟨first, after⟩ := firstBody_append head.fits (stops_barred bodies)
    obtain ⟨a, others, eq⟩ := List.exists_cons_of_ne_nil head.names_ne_nil
    rw [barred_cons, furtherBodies]
    simp only [first, after, eq, ih fun b mem => valid b (List.mem_cons_of_mem body mem),
      List.map_cons]

/-- If bodies are read to the end of a text, they are what the text holds. -/
theorem exists_of_furtherBodies (all : furtherBodies text = (names, [])) :
    ∃ bodies : List BodyLayout, (∀ body ∈ bodies, body.Valid) ∧ barred bodies = text ∧
      bodies.map BodyLayout.names = names := by
  fun_induction furtherBodies text generalizing names with
  | case1 rest none => cases all
  | case2 rest more left read some ih =>
    -- a bar and a body, and the other bodies by induction
    obtain ⟨rfl, rfl⟩ := Prod.mk.inj all
    obtain ⟨bodies, valid, eq, same⟩ := ih read
    obtain ⟨a, others, found⟩ := List.exists_cons_of_ne_nil some
    obtain ⟨body, validBody, first, whole⟩ := exists_valid_firstBody found
    refine ⟨body :: bodies, List.forall_mem_cons.mpr ⟨validBody, valid⟩, ?_, ?_⟩
    · rw [barred_cons, eq, whole]
    · rw [List.map_cons, first, found, same]
  | case3 text other =>
    cases all
    exact ⟨[], nofun, rfl, rfl⟩

/-- **Bodies are read as they are set**, with bars between them. -/
theorem parseBodies_eq_ok_iff :
    parseBodies text = .ok names ↔
      ∃ bodies : List BodyLayout, bodies ≠ [] ∧ (∀ body ∈ bodies, body.Valid) ∧
        ['|'].intercalate (bodies.map BodyLayout.text) = text ∧
        bodies.map BodyLayout.names = names := by
  constructor
  · intro ok
    unfold parseBodies at ok
    split at ok
    · cases ok
    · next first some =>
      split at ok
      · next more all =>
        cases ok
        obtain ⟨bodies, valid, eq, rfl⟩ := exists_of_furtherBodies all
        obtain ⟨a, others, found⟩ := List.exists_cons_of_ne_nil some
        obtain ⟨body, validBody, names, whole⟩ := exists_valid_firstBody found
        refine ⟨body :: bodies, List.cons_ne_nil _ _,
          List.forall_mem_cons.mpr ⟨validBody, valid⟩, ?_, ?_⟩
        · rw [intercalate_eq_barred, eq, whole]
        · rw [List.map_cons, names, found]
      · cases ok
  · rintro ⟨bodies, nonempty, valid, rfl, rfl⟩
    cases bodies with
    | nil => exact absurd rfl nonempty
    | cons body bodies =>
      have head := valid body List.mem_cons_self
      obtain ⟨first, after⟩ := firstBody_append head.fits (stops_barred bodies)
      obtain ⟨a, others, eq⟩ := List.exists_cons_of_ne_nil head.names_ne_nil
      have further := furtherBodies_barred fun b mem => valid b (List.mem_cons_of_mem body mem)
      rw [intercalate_eq_barred, parseBodies]
      simp only [first, after, eq, further, List.map_cons]

/-- No body has a bar in it, so bodies set with bars between them can be told apart. -/
theorem splitOn_bodies (nonempty : bodies ≠ []) (valid : ∀ body ∈ bodies, body.Valid) :
    (['|'].intercalate (bodies.map BodyLayout.text)).splitOn '|' = bodies.map BodyLayout.text := by
  refine List.splitOn_intercalate '|' ?_ ?_
  · intro text mem bar
    obtain ⟨body, hbody, rfl⟩ := List.mem_map.mp mem
    have char := (valid body hbody).fits.isBodyChar '|' bar
    rw [isBodyChar_bar] at char
    cases char
  · exact fun none => nonempty (List.map_eq_nil_iff.mp none)

/-- Where bodies are read, there is more than blanks before, between and after the bars. -/
theorem not_blanks_of_parseBodies (ok : parseBodies text = .ok names) :
    ∀ piece ∈ text.splitOn '|', ¬Blanks piece := by
  obtain ⟨bodies, nonempty, valid, rfl, -⟩ := parseBodies_eq_ok_iff.mp ok
  rw [splitOn_bodies nonempty valid]
  intro piece mem blanks
  obtain ⟨body, hbody, rfl⟩ := List.mem_map.mp mem
  have named := (valid body hbody).names_ne_nil
  rw [← (valid body hbody).fits.words_text, words_eq_nil blanks] at named
  exact named rfl

/-! ### The left-hand side and the arrow -/

variable {indent gap back : List Char} {lhs : Name} {arrow : Arrow}

/-- An arrow is not part of a left-hand side, and there is no blank in it. -/
theorem stops_arrow (arrow : Arrow) (rest : List Char) :
    Stops isLeftSideChar (arrow.text ++ rest) ∧ Stops isBlank (arrow.text ++ rest) := by
  cases arrow with
  | sign => exact ⟨stops_cons_iff.mpr (by decide +kernel), stops_cons_iff.mpr (by decide)⟩
  | letters => exact ⟨stops_cons_iff.mpr (by decide +kernel), stops_cons_iff.mpr (by decide)⟩

theorem afterArrow?_append (arrow : Arrow) (rest : List Char) :
    afterArrow? (arrow.text ++ rest) = some rest := by
  cases arrow <;> rfl

theorem exists_arrow (found : afterArrow? text = some rest) :
    ∃ arrow : Arrow, arrow.text ++ rest = text := by
  unfold afterArrow? at found
  split at found
  · cases found
    exact ⟨.sign, rfl⟩
  · cases found
    exact ⟨.letters, rfl⟩
  · cases found

/-- What follows a left-hand side ends it: blanks, or the arrow. -/
theorem stops_gap (blanks : Blanks gap) (arrow : Arrow) (back : List Char) :
    Stops isLeftSideChar (gap ++ (arrow.text ++ back)) := by
  refine (stops_arrow arrow back).1.append ?_
  intro c mem
  exact isLeftSideChar_of_isWhiteSpace (isWhiteSpace_of_isBlank (blanks c mem))

/-- A left-hand side ends the blanks before it. -/
theorem stops_lhs (left : ∀ c ∈ lhs.text.toList, isLeftSideChar c) (rest : List Char) :
    Stops isBlank (lhs.text.toList ++ rest) :=
  stops_append (fun c mem => isBlank_of_isLeftSideChar (left c mem)) lhs.toList_text_ne_nil rest

/-- **The left-hand side and the arrow are read**, and the rest is left to the bodies. -/
theorem parse_front (blanksIndent : Blanks indent) (left : ∀ c ∈ lhs.text.toList, isLeftSideChar c)
    (blanksGap : Blanks gap) :
    parse (indent ++ (lhs.text.toList ++ (gap ++ (arrow.text ++ back))))
      = (parseBodies back).map fun bodies => ⟨lhs, bodies⟩ := by
  have stopsGap := stops_gap blanksGap arrow back
  unfold parse
  simp only [(stops_lhs left _).dropWhile_append blanksIndent, stopsGap.takeWhile_append left,
    stopsGap.dropWhile_append left, (stops_arrow arrow back).2.dropWhile_append blanksGap,
    Name.ofChars?_eq_some_iff.mpr (rfl : lhs.text.toList = _), afterArrow?_append]

/-- **A line that is read has a left-hand side and an arrow.** -/
theorem exists_front {line : List Char} {rule : RuleLine} (ok : parse line = .ok rule) :
    ∃ indent gap arrow back, Blanks indent ∧ (∀ c ∈ rule.lhs.text.toList, isLeftSideChar c) ∧
      Blanks gap ∧ parseBodies back = .ok rule.bodies ∧
      indent ++ (rule.lhs.text.toList ++ (gap ++ (Arrow.text arrow ++ back))) = line := by
  unfold parse at ok
  simp only at ok
  split at ok
  · cases ok
  · next lhs name =>
    split at ok
    · cases ok
    · next back found =>
      obtain ⟨bodies, read, rfl⟩ := exists_of_map_eq_ok ok
      obtain ⟨arrow, eq⟩ := exists_arrow found
      have spelled := Name.ofChars?_eq_some_iff.mp name
      refine ⟨line.takeWhile isBlank,
        ((line.dropWhile isBlank).dropWhile isLeftSideChar).takeWhile isBlank, arrow, back,
        ?_, ?_, ?_, read, ?_⟩
      · exact fun c mem => List.mem_takeWhile_imp mem
      · rw [spelled]
        exact fun c mem => List.mem_takeWhile_imp mem
      · exact fun c mem => List.mem_takeWhile_imp mem
      · -- what is taken and what is dropped make up the line again
        rw [eq, spelled, List.takeWhile_append_dropWhile, List.takeWhile_append_dropWhile,
          List.takeWhile_append_dropWhile]

/-! ### Lines -/

namespace Layout

variable {layout other : Layout}

theorem text_eq (layout : Layout) :
    layout.text = layout.indent ++ (layout.lhs.text.toList ++ (layout.gap ++
      (layout.arrow.text ++ ['|'].intercalate (layout.bodies.map BodyLayout.text)))) := by
  simp only [text, List.append_assoc]

/-- **There is no sign of a comment in the line of a rule**, and no white space but blanks. -/
theorem Valid.isRuleChar (valid : layout.Valid) : ∀ c ∈ layout.text, IsRuleChar c := by
  intro c mem
  have body_of_mem {b : BodyLayout} (hb : b ∈ layout.bodies) (mem : c ∈ b.text) : IsRuleChar c :=
    isRuleChar_of_isBodyChar ((valid.valid b hb).fits.isBodyChar c mem)
  obtain ⟨first, others, eq⟩ := List.exists_cons_of_ne_nil valid.bodies_ne_nil
  rw [eq] at body_of_mem
  rw [text_eq, eq, intercalate_eq_barred, barred] at mem
  simp only [List.mem_append, List.mem_flatMap, List.mem_cons] at mem
  rcases mem with indent | left | gap | arrow | body | ⟨b, hb, rfl | body⟩
  · exact isRuleChar_of_isBlank (valid.blanks_indent c indent)
  · exact isRuleChar_of_isLeftSideChar (valid.isLeftSideChar c left)
  · exact isRuleChar_of_isBlank (valid.blanks_gap c gap)
  · exact isRuleChar_arrow layout.arrow c arrow
  · exact body_of_mem List.mem_cons_self body
  · exact ⟨by decide, by decide⟩
  · exact body_of_mem (List.mem_cons_of_mem _ hb) body

/-- **A line is laid out in one way only.** -/
theorem Valid.eq_of_text_eq (valid : layout.Valid) (validOther : other.Valid)
    (same : layout.text = other.text) : layout = other := by
  obtain ⟨indent, lhs, gap, arrow, bodies⟩ := layout
  obtain ⟨indentOther, lhsOther, gapOther, arrowOther, bodiesOther⟩ := other
  rw [text_eq, text_eq] at same
  -- part by part, each of them ended by the next one
  obtain ⟨rfl, afterIndent⟩ := (stops_lhs valid.isLeftSideChar _).append_inj
    (stops_lhs validOther.isLeftSideChar _) valid.blanks_indent validOther.blanks_indent same
  obtain ⟨chars, afterLhs⟩ := (stops_gap valid.blanks_gap arrow _).append_inj
    (stops_gap validOther.blanks_gap arrowOther _) valid.isLeftSideChar validOther.isLeftSideChar
    afterIndent
  obtain rfl : lhs = lhsOther := Name.ext (String.toList_injective chars)
  obtain ⟨rfl, afterGap⟩ := (stops_arrow arrow _).2.append_inj (stops_arrow arrowOther _).2
    valid.blanks_gap validOther.blanks_gap afterLhs
  obtain rfl : arrow = arrowOther := by
    cases arrow <;> cases arrowOther <;> first | rfl | simp [Arrow.text] at afterGap
  -- the same bodies, since they can be told apart and each is laid out in one way only
  have back := List.append_cancel_left afterGap
  have texts : bodies.map BodyLayout.text = bodiesOther.map BodyLayout.text := by
    rw [← splitOn_bodies valid.bodies_ne_nil valid.valid,
      ← splitOn_bodies validOther.bodies_ne_nil validOther.valid]
    exact congrArg (List.splitOn '|') back
  obtain rfl := BodyLayout.eq_of_map_text_eq valid.valid validOther.valid texts
  rfl

end Layout

/-- **A line is read as a rule if and only if it is laid out as that rule.** -/
theorem parse_eq_ok_iff {line : List Char} {rule : RuleLine} :
    parse line = .ok rule ↔
      ∃ layout : Layout, layout.Valid ∧ layout.text = line ∧ layout.rule = rule := by
  constructor
  · intro ok
    obtain ⟨indent, gap, arrow, back, blanksIndent, left, blanksGap, read, eq⟩ := exists_front ok
    obtain ⟨bodies, nonempty, valid, rfl, names⟩ := parseBodies_eq_ok_iff.mp read
    refine ⟨⟨indent, rule.lhs, gap, arrow, bodies⟩,
      ⟨blanksIndent, left, blanksGap, nonempty, valid⟩, ?_, ?_⟩
    · rw [Layout.text_eq, eq]
    · rw [Layout.rule, names]
  · rintro ⟨layout, valid, rfl, rfl⟩
    have read := parseBodies_eq_ok_iff.mpr
      ⟨layout.bodies, valid.bodies_ne_nil, valid.valid, rfl, rfl⟩
    rw [Layout.text_eq, parse_front valid.blanks_indent valid.isLeftSideChar valid.blanks_gap, read]
    rfl

/-- An arrow may be part of a symbol, and no blanks are needed around the first one. -/
example : parse "E'→x->y 'z|ε ".toList
    = .ok ⟨⟨"E'", by decide⟩, [[⟨"x->y", by decide⟩, ⟨"'z", by decide⟩], [emptyName]]⟩ := by
  decide +kernel

end RuleLine

end ContextFree

import ContextFree.Grammar.Source
import ContextFree.Proofs.Layout
import Mathlib.Data.List.Basic
import Mathlib.Data.List.Forall2

/-!
# Texts are read line by line

Where a text is cut into lines is said by `Text.CutInto`, ending by ending, and `Text.lines` cuts it
there and nowhere else (`Text.cutInto_iff`). Each line is then read by itself. A line that is blank
or a comment is passed over; any other should be good (`RuleLine.IsGood`), that is, laid out as a
rule in which the sign of the empty word stands for whole bodies only.

Reading goes from the first line to the last and is given up at the first line that is neither
passed over nor good. So the number that is reported is the number of that line, whatever comes
after it (`Grammar.exists_readFrom_eq_error_iff`), and a text that is read through has as many rules
as it has good lines (`Grammar.readFrom_eq_ok_iff`). Together with what is said of single lines this
gives `Grammar.ofText_eq_unreadable_iff`.
-/

namespace ContextFree

namespace Text

variable {text line rest : List Char} {cut : List (List Char)}

/-! ### Where a text is cut -/

/-- The text is cut into these lines. A line ends at a line feed, to which a carriage return right
before it belongs, or at the end of the text, unless there is nothing left for it. -/
inductive CutInto : List Char → List (List Char) → Prop
  | nil : CutInto [] []
  | last {line : List Char} : '\n' ∉ line → line ≠ [] → CutInto line [line]
  | feed {line rest : List Char} {cut : List (List Char)} :
    '\n' ∉ line → line.getLast? ≠ some '\r' → CutInto rest cut →
      CutInto (line ++ '\n' :: rest) (line :: cut)
  | returnFeed {line rest : List Char} {cut : List (List Char)} :
    '\n' ∉ line → CutInto rest cut → CutInto (line ++ '\r' :: '\n' :: rest) (line :: cut)

theorem splitOnP_feed (uncut : '\n' ∉ line) : line.splitOnP (· = '\n') = [line] := by
  refine List.splitOnP_eq_singleton ?_
  intro c mem
  rw [decide_eq_false_iff_not]
  rintro rfl
  exact uncut mem

theorem lines_of_uncut (uncut : '\n' ∉ line) (nonempty : line ≠ []) : lines line = [line] := by
  cases line with
  | nil => exact absurd rfl nonempty
  | cons c cs => simp only [lines, splitOnP_feed uncut, List.dropLast_singleton, List.map_nil,
      List.getLastD_cons, List.nil_append, List.getLastD_nil]

/-- **The first line feed ends the first line.** -/
theorem lines_append_feed (uncut : '\n' ∉ line) (rest : List Char) :
    lines (line ++ '\n' :: rest) = dropReturn line :: lines rest := by
  have pieces : (line ++ '\n' :: rest).splitOnP (· = '\n')
      = line :: rest.splitOnP (· = '\n') := by
    rw [List.splitOnP_append_cons _ _ (by decide), splitOnP_feed uncut, List.singleton_append]
  obtain ⟨piece, others, eq⟩ := List.exists_cons_of_ne_nil (List.splitOnP_ne_nil (· = '\n') rest)
  unfold lines
  rw [pieces, eq]
  simp only [List.dropLast_cons_cons, List.map_cons, List.getLastD_cons]
  -- what comes after the last line feed is the same
  split <;> rfl

theorem dropReturn_of_ne (other : line.getLast? ≠ some '\r') : dropReturn line = line :=
  if_neg other

theorem dropReturn_append (line : List Char) : dropReturn (line ++ ['\r']) = line := by
  rw [dropReturn, if_pos List.getLast?_concat, List.dropLast_concat]

/-- **A text is cut where `lines` cuts it**, and nowhere else. -/
theorem cutInto_iff : CutInto text cut ↔ lines text = cut := by
  constructor
  · intro cuts
    induction cuts with
    | nil => rfl
    | last uncut nonempty => exact lines_of_uncut uncut nonempty
    | feed uncut other _ ih => rw [lines_append_feed uncut, dropReturn_of_ne other, ih]
    | @returnFeed line rest cut uncut _ ih =>
      -- up to the line feed, the line has the carriage return as its last character
      have within : '\n' ∉ line ++ ['\r'] := by simpa using uncut
      have ended := lines_append_feed within rest
      rw [List.append_assoc, dropReturn_append, ih] at ended
      exact ended
  · rintro rfl
    -- the first line is cut off, and the rest is shorter
    induction size : text.length using Nat.strongRecOn generalizing text with
    | ind n ih =>
      by_cases cut : '\n' ∈ text
      · obtain ⟨line, rest, rfl, uncut⟩ := List.eq_append_cons_of_mem cut
        rw [lines_append_feed uncut]
        have further : CutInto rest (lines rest) := by
          refine ih rest.length ?_ rfl
          rw [← size, List.length_append, List.length_cons]
          omega
        by_cases ending : line.getLast? = some '\r'
        · obtain ⟨front, rfl⟩ := List.getLast?_eq_some_iff.mp ending
          have front_uncut : '\n' ∉ front := fun mem => uncut (List.mem_append_left _ mem)
          rw [dropReturn_append, List.append_assoc]
          exact .returnFeed front_uncut further
        · rw [dropReturn_of_ne ending]
          exact .feed uncut ending further
      · by_cases nonempty : text = []
        · rw [nonempty]
          exact .nil
        · rw [lines_of_uncut cut nonempty]
          exact .last cut nonempty

end Text

namespace RuleLine

open Text

variable {line : List Char} {rule : RuleLine}

/-! ### Lines that are passed over -/

/-- The line is white space, or white space and a comment. -/
def IsBlankOrComment (line : List Char) : Prop :=
  (∀ c ∈ line, isWhiteSpace c) ∨
    ∃ space comment, (∀ c ∈ space, isWhiteSpace c) ∧ line = space ++ '#' :: comment

theorem isSkipped_iff : isSkipped line ↔ IsBlankOrComment line := by
  unfold isSkipped
  constructor
  · intro skipped
    split at skipped
    · next none => exact .inl (List.dropWhile_eq_nil_iff.mp none)
    · next c comment begins =>
      obtain rfl : c = '#' := by simpa using skipped
      refine .inr ⟨line.takeWhile isWhiteSpace, comment, ?_, ?_⟩
      · exact fun c mem => List.mem_takeWhile_imp mem
      · rw [← begins, List.takeWhile_append_dropWhile]
  · rintro (space | ⟨space, comment, within, rfl⟩)
    · rw [List.dropWhile_eq_nil_iff.mpr space]
    · have stops : Stops isWhiteSpace ('#' :: comment) := stops_cons_iff.mpr (by decide)
      rw [stops.dropWhile_append within]
      rfl

/-! ### Lines that are read -/

/-- The line is laid out as a rule in which the sign of the empty word is not the left-hand side,
and is a whole body wherever it is a symbol. -/
def IsGood (line : List Char) : Prop :=
  ∃ layout : Layout, layout.Valid ∧ layout.text = line ∧ layout.lhs ≠ emptyName ∧
    ∀ body ∈ layout.bodies, emptyName ∈ body.names → body.names = [emptyName]

theorem exists_read_iff : (∃ rule, read line = .ok rule) ↔ IsGood line := by
  constructor
  · rintro ⟨rule, ok⟩
    obtain ⟨parsed, placed⟩ := read_eq_ok_iff.mp ok
    obtain ⟨layout, valid, text, rfl⟩ := parse_eq_ok_iff.mp parsed
    obtain ⟨lhs, alone⟩ := hasMisplacedEmpty_eq_false_iff.mp placed
    exact ⟨layout, valid, text, lhs, fun body hbody => alone _ (List.mem_map_of_mem hbody)⟩
  · rintro ⟨layout, valid, text, lhs, alone⟩
    refine ⟨layout.rule, read_eq_ok_iff.mpr ⟨parse_eq_ok_iff.mpr ⟨layout, valid, text, rfl⟩, ?_⟩⟩
    refine hasMisplacedEmpty_eq_false_iff.mpr ⟨lhs, fun names mem => ?_⟩
    obtain ⟨body, hbody, rfl⟩ := List.mem_map.mp mem
    exact alone body hbody

/-- The line should be a rule, but is none, or the sign of the empty word is out of place in it. -/
def IsFaulty (line : List Char) : Prop := ¬IsBlankOrComment line ∧ ¬IsGood line

theorem isFaulty_iff :
    IsFaulty line ↔ isSkipped line = false ∧ ∃ fault, read line = .error fault := by
  rw [IsFaulty, ← isSkipped_iff, ← exists_read_iff, Bool.not_eq_true]
  refine and_congr_right fun _ => ?_
  cases read line with
  | error fault => simp
  | ok rule => simp

theorem not_isFaulty_iff :
    ¬IsFaulty line ↔ isSkipped line ∨ isSkipped line = false ∧ ∃ rule, read line = .ok rule := by
  rw [IsFaulty, ← isSkipped_iff, ← exists_read_iff]
  cases isSkipped line <;> simp

/-- How a line is read is how it is laid out. -/
structure IsReadByLayout (line : List Char) : Prop where
  /-- The line is accepted if it is laid out as a rule, in a way that is then the only one. -/
  accepted_iff : (∃ rule, parse line = .ok rule) ↔
    ∃! layout : Layout, layout.Valid ∧ layout.text = line
  /-- What is read are the parts of the layout. -/
  parse_eq : ∀ layout : Layout, layout.Valid → layout.text = line → parse line = .ok layout.rule
  /-- A sign of a comment, or white space that is not a blank, rejects the line. -/
  isRuleChar : (∃ rule, parse line = .ok rule) → ∀ c ∈ line, IsRuleChar c
  /-- So do blanks, or nothing, where a body should be: after the arrow, between two bars or after
  the last bar. -/
  not_blanks : (∃ rule, parse line = .ok rule) →
    ∀ (indent gap back : List Char) (lhs : Name) (arrow : Arrow), Blanks indent →
      (∀ c ∈ lhs.text.toList, isLeftSideChar c) → Blanks gap →
      indent ++ (lhs.text.toList ++ (gap ++ (arrow.text ++ back))) = line →
      ∀ piece ∈ back.splitOn '|', ¬Blanks piece
  /-- The line is good if, besides, the sign of the empty word stands where it may. -/
  good_iff : IsGood line ↔ ∃ rule, read line = .ok rule

theorem isReadByLayout (line : List Char) : IsReadByLayout line where
  accepted_iff := by
    constructor
    · rintro ⟨rule, ok⟩
      obtain ⟨layout, valid, eq, -⟩ := parse_eq_ok_iff.mp ok
      refine ⟨layout, ⟨valid, eq⟩, ?_⟩
      rintro other ⟨validOther, eqOther⟩
      exact validOther.eq_of_text_eq valid (eqOther.trans eq.symm)
    · rintro ⟨layout, ⟨valid, eq⟩, -⟩
      exact ⟨layout.rule, parse_eq_ok_iff.mpr ⟨layout, valid, eq, rfl⟩⟩
  parse_eq := by
    intro layout valid eq
    exact parse_eq_ok_iff.mpr ⟨layout, valid, eq, rfl⟩
  isRuleChar := by
    rintro ⟨rule, ok⟩
    obtain ⟨layout, valid, rfl, -⟩ := parse_eq_ok_iff.mp ok
    exact valid.isRuleChar
  not_blanks := by
    rintro ⟨rule, ok⟩ indent gap back lhs arrow blanksIndent left blanksGap rfl
    rw [parse_front blanksIndent left blanksGap] at ok
    obtain ⟨bodies, read, -⟩ := exists_of_map_eq_ok ok
    exact not_blanks_of_parseBodies read
  good_iff := exists_read_iff.symm

end RuleLine

namespace Grammar

open Text RuleLine

variable {number : Nat} {line : List Char} {cut : List (List Char)} {rules : List RuleLine}

/-! ### Texts that are read -/

/-- The rules of the lines, the first of which has the given number. -/
def readFrom (number : Nat) (cut : List (List Char)) : Except Failure (List RuleLine) :=
  ((cut.zipIdx number).filter fun (line, _) => !isSkipped line).mapM
    fun (line, number) => (read line).mapError (.unreadable number)

theorem readFrom_cons_of_isSkipped (skipped : isSkipped line) :
    readFrom number (line :: cut) = readFrom (number + 1) cut := by
  rw [readFrom, List.zipIdx_cons, List.filter_cons_of_neg (by simp [skipped])]
  rfl

theorem readFrom_cons (skipped : isSkipped line = false) :
    readFrom number (line :: cut) = do
      let rule ← (read line).mapError (.unreadable number)
      let rules ← readFrom (number + 1) cut
      return rule :: rules := by
  rw [readFrom, List.zipIdx_cons, List.filter_cons_of_pos (by simp [skipped]), List.mapM_cons]
  rfl

/-- **A text is read through** if all of its lines that are not passed over are. -/
theorem readFrom_eq_ok_iff :
    readFrom number cut = .ok rules ↔
      List.Forall₂ (fun line rule => read line = .ok rule) (cut.filter (!isSkipped ·)) rules := by
  -- the number of the first line is of no account, and changes from line to line
  induction cut generalizing number rules with
  | nil =>
    rw [List.filter_nil, List.forall₂_nil_left_iff]
    exact ⟨fun ok => (Except.ok.inj ok).symm, fun none => none ▸ rfl⟩
  | cons line cut ih =>
    cases skipped : isSkipped line with
    | true =>
      rw [readFrom_cons_of_isSkipped skipped, ih, List.filter_cons_of_neg (by simp [skipped])]
    | false =>
      rw [readFrom_cons skipped, List.filter_cons_of_pos (by simp [skipped]),
        List.forall₂_cons_left_iff]
      constructor
      · intro ok
        obtain ⟨rule, first, ok⟩ := exists_of_bind_eq_ok ok
        obtain ⟨others, further, ok⟩ := exists_of_bind_eq_ok ok
        cases ok
        exact ⟨rule, others, mapError_eq_ok_iff.mp first, ih.mp further, rfl⟩
      · rintro ⟨rule, others, first, further, rfl⟩
        rw [mapError_eq_ok_iff.mpr first, ih.mpr further]
        rfl

/-- The first faulty line, if the first line of all has the number `first`, has this number. -/
def IsFirstFault (first : Nat) (cut : List (List Char)) (number : Nat) : Prop :=
  ∃ before line after, cut = before ++ line :: after ∧ (∀ l ∈ before, ¬IsFaulty l) ∧
    IsFaulty line ∧ number = first + before.length

theorem isFirstFault_cons_of_isFaulty {first : Nat} (faulty : IsFaulty line) :
    IsFirstFault first (line :: cut) number ↔ number = first := by
  constructor
  · rintro ⟨before, l, after, eq, fine, -, rfl⟩
    cases before with
    | nil => rfl
    | cons b before =>
      obtain ⟨rfl, -⟩ := List.cons.inj eq
      exact absurd faulty (fine _ List.mem_cons_self)
  · rintro rfl
    exact ⟨[], line, cut, rfl, nofun, faulty, rfl⟩

theorem isFirstFault_cons {first : Nat} (fine : ¬IsFaulty line) :
    IsFirstFault first (line :: cut) number ↔ IsFirstFault (first + 1) cut number := by
  constructor
  · rintro ⟨before, l, after, eq, others, faulty, rfl⟩
    cases before with
    | nil =>
      obtain ⟨rfl, -⟩ := List.cons.inj eq
      exact absurd faulty fine
    | cons b before =>
      obtain ⟨-, rfl⟩ := List.cons.inj eq
      refine ⟨before, l, after, rfl, (List.forall_mem_cons.mp others).2, faulty, ?_⟩
      rw [List.length_cons]
      omega
  · rintro ⟨before, l, after, rfl, others, faulty, rfl⟩
    refine ⟨line :: before, l, after, rfl, List.forall_mem_cons.mpr ⟨fine, others⟩, faulty, ?_⟩
    rw [List.length_cons]
    omega

/-- **Reading is given up at the first faulty line.** -/
theorem exists_readFrom_eq_error_iff {first : Nat} :
    (∃ fault, readFrom first cut = .error (.unreadable number fault)) ↔
      IsFirstFault first cut number := by
  induction cut generalizing first with
  | nil => exact ⟨nofun, by simp [IsFirstFault]⟩
  | cons line cut ih =>
    by_cases faulty : IsFaulty line
    · -- the lines after this one are not looked at
      rw [isFirstFault_cons_of_isFaulty faulty]
      obtain ⟨skipped, fault, failed⟩ := isFaulty_iff.mp faulty
      rw [readFrom_cons skipped, failed]
      constructor
      · rintro ⟨_, same⟩
        cases same
        rfl
      · rintro rfl
        exact ⟨fault, rfl⟩
    · rw [isFirstFault_cons faulty, ← ih]
      rcases not_isFaulty_iff.mp faulty with skipped | ⟨skipped, rule, ok⟩
      · rw [readFrom_cons_of_isSkipped skipped]
      · -- the line is read, so that any failure is one of the lines after it
        rw [readFrom_cons skipped, ok]
        cases readFrom (first + 1) cut with
        | error failure => rfl
        | ok rules => exact ⟨nofun, nofun⟩

theorem readFrom_eq_ok_nil_iff :
    readFrom number cut = .ok [] ↔ ∀ line ∈ cut, IsBlankOrComment line := by
  rw [readFrom_eq_ok_iff, List.forall₂_nil_right_iff, List.filter_eq_nil_iff]
  simp only [← isSkipped_iff, Bool.not_eq_true', Bool.not_eq_false]

/-- **Which texts are refused as they are read, and with which number.** How a line is read is how
it is laid out, and a text is cut into lines at line feeds. Of its lines the first faulty one is
reported; and if all lines are passed over, so that there is no rule, the number is zero. -/
theorem ofText_eq_unreadable_iff (text : String) :
    (∀ line, IsReadByLayout line) ∧
    (∀ cut, CutInto text.toList cut ↔ lines text.toList = cut) ∧
    ∀ number,
      (∃ fault, (ofText text).outcome = .error (.unreadable number fault)) ↔
        IsFirstFault 1 (lines text.toList) number ∨
          number = 0 ∧ ∀ line ∈ lines text.toList, IsBlankOrComment line := by
  refine ⟨isReadByLayout, fun _ => cutInto_iff, fun number => ?_⟩
  have rules_eq : readRules text.toList = readFrom 1 (lines text.toList) := rfl
  rw [outcome_ofText, rules_eq]
  constructor
  · rintro ⟨fault, failed⟩
    cases reading : readFrom 1 (lines text.toList) with
    | error failure =>
      rw [reading] at failed
      cases failed
      exact .inl (exists_readFrom_eq_error_iff.mp ⟨fault, reading⟩)
    | ok rules =>
      rw [reading] at failed
      cases rules with
      | nil =>
        cases failed
        exact .inr ⟨rfl, readFrom_eq_ok_nil_iff.mp reading⟩
      | cons first others =>
        -- rules that have been read can only fail to fit together
        obtain ⟨_, _, other⟩ := mapError_eq_error_iff.mp failed
        cases other
  · rintro (first | ⟨rfl, none⟩)
    · obtain ⟨fault, failed⟩ := exists_readFrom_eq_error_iff.mpr first
      exact ⟨fault, by rw [failed]; rfl⟩
    · exact ⟨.noRules, by rw [readFrom_eq_ok_nil_iff.mpr none]; rfl⟩

end Grammar

end ContextFree

import ContextFree.Grammar.Declaration
import ContextFree.Report
import ContextFree.RuleLine

/-!
# Grammars from texts

A grammar can be written as a text with one rule on a line; empty lines and comment lines are
passed over. The text declares nothing, so the alphabets are read off the rules: the left-hand
sides are non-terminals, and so are the other names that begin with a capital letter of the
Latin alphabet; all further names are terminals. The names are gone through in the order in which
they are used, and each of them is placed when it is met. Rules of the same left-hand side are
merged. The first rule names the start symbol.

The first line that is not a rule decides, whatever comes after it.
-/

namespace ContextFree

namespace Grammar

open Text

/-- The rules of a text, or the first line that holds none although it should. -/
def readRules (text : List Char) : Except Failure (List RuleLine) :=
  (((lines text).zipIdx 1).filter fun (line, _) => !RuleLine.isSkipped line).mapM
    fun (line, number) => (RuleLine.read line).mapError (.unreadable number)

def isCapitalized (name : Name) : Bool := name.text.toList.head?.any Char.isUpper

/-- The two alphabets, as far as they are known. -/
@[ext] structure Alphabets where
  nonterminals : List Name
  terminals : List Name
deriving DecidableEq

/-- Lists a name after the others, unless it is listed already. -/
def addName (names : List Name) (name : Name) : List Name :=
  if name ∈ names then names else names ++ [name]

/-- Puts a name that is used in a body into one of the alphabets. What is known to be a non-terminal
stays one, and the sign of the empty word is no symbol. -/
def Alphabets.place (known : Alphabets) (name : Name) : Alphabets :=
  if name = emptyName ∨ name ∈ known.nonterminals then known
  else if isCapitalized name then { known with nonterminals := addName known.nonterminals name }
  else { known with terminals := addName known.terminals name }

/-- The alphabets of rules. All left-hand sides are known to be non-terminals before the bodies are
gone through. -/
def alphabets (rules : List RuleLine) : Alphabets :=
  (rules.flatMap (·.bodies.flatten)).foldl Alphabets.place ⟨(rules.map (·.lhs)).eraseDups, []⟩

/-- A body of names as a body of symbols; the sign of the empty word alone is the empty body. -/
def symbols (nonterminals : List Name) (body : List Name) : Body :=
  if body = [emptyName] then []
  else body.map fun name =>
    if name ∈ nonterminals then .nonterminal name else .terminal name

/-- Opens a row for a left-hand side at the end of the table, unless there is one already. -/
def openRow (table : List (Rule Body)) (lhs : Name) : List (Rule Body) :=
  if lhs ∈ table.map (·.lhs) then table else table ++ [⟨lhs, []⟩]

/-- Puts a body at the end of the row of its left-hand side. -/
def pushBody (lhs : Name) (table : List (Rule Body)) (body : Body) : List (Rule Body) :=
  table.map fun row => if row.lhs = lhs then ⟨lhs, row.bodies ++ [body]⟩ else row

/-- Adds the bodies of a rule to the row of its left-hand side, one after the other. -/
def mergeRule (nonterminals : List Name) (table : List (Rule Body)) (rule : RuleLine) :
    List (Rule Body) :=
  (rule.bodies.map (symbols nonterminals)).foldl (pushBody rule.lhs) (openRow table rule.lhs)

/-- The rules as rows of bodies, with one row for all rules of a left-hand side. -/
def mergeRules (nonterminals : List Name) (rules : List RuleLine) : List (Rule Body) :=
  rules.foldl (mergeRule nonterminals) []

/-- The grammar of rules, with the given start symbol. -/
def ofRuleLines? (rules : List RuleLine) (start : Name) : Except Malformed Grammar :=
  let ⟨nonterminals, terminals⟩ := alphabets rules
  ofRows? nonterminals terminals (mergeRules nonterminals rules) start

def ofText (text : String) : Report Grammar := do
  match ← .quiet (readRules text.toList) with
  | [] => .fail (.unreadable 0 .noRules)
  | first :: others =>
    let rules := first :: others
    let ⟨nonterminals, terminals⟩ := alphabets rules
    .note (.read nonterminals.length terminals.length first.lhs)
    .quiet ((ofRuleLines? rules first.lhs).mapError .malformed)

/-- What comes of a text is what comes of its rules, if it has rules. -/
theorem outcome_ofText (text : String) :
    (ofText text).outcome = (readRules text.toList).bind fun
      | [] => .error (.unreadable 0 .noRules)
      | first :: others =>
        (ofRuleLines? (first :: others) first.lhs).mapError .malformed := by
  unfold ofText
  rw [Report.outcome_bind]
  cases readRules text.toList with
  | error failure => rfl
  | ok rules =>
    cases rules with
    | nil => rfl
    | cons first others =>
      simp only [Report.quiet, Except.bind, Report.outcome_bind, Report.note]

/-- A text that is read describes the grammar of its rules, the first of which names the start
symbol. -/
theorem outcome_ofText_eq_ok_iff {text : String} {G : Grammar} :
    (ofText text).outcome = .ok G ↔
      ∃ first others, readRules text.toList = .ok (first :: others) ∧
        ofRuleLines? (first :: others) first.lhs = .ok G := by
  rw [outcome_ofText]
  constructor
  · intro ok
    obtain ⟨rules, reading, ok⟩ := exists_of_bind_eq_ok ok
    cases rules with
    | nil => cases ok
    | cons first others => exact ⟨first, others, reading, mapError_eq_ok_iff.mp ok⟩
  · rintro ⟨first, others, reading, declared⟩
    rw [reading]
    exact mapError_eq_ok_iff.mpr declared

theorem ofText_wellFormed {text : String} {G : Grammar} (h : (ofText text).outcome = .ok G) :
    G.WellFormed := by
  obtain ⟨first, others, _, declared⟩ := outcome_ofText_eq_ok_iff.mp h
  exact ofRows?_wellFormed declared

end Grammar

end ContextFree

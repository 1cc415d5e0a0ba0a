import ContextFree.Distinct
import ContextFree.Failure

/-!
# Context-free grammars

A **grammar** has a start symbol, two alphabets and, for its non-terminals, rules. A **rule**
lists the bodies that one non-terminal may be replaced by. All parts are kept in the order in
which they were given, because that order shows in whatever is printed; what a grammar derives
does not depend on it.

The type itself demands nothing. A grammar is `WellFormed` when its parts fit together: the
start symbol is declared, the alphabets share no name, there is one rule for each declared
non-terminal in the order of declaration, bodies mention declared symbols only, and nothing is
listed twice. The constructors of `ContextFree.Grammar.Declaration` build well-formed grammars
and every stage of normalization leads from well-formed grammars to well-formed ones.

Two grammars are the same up to order (`SameUpToOrder`) if they differ at most in the order in
which symbols, rules and the bodies of a rule are listed.
-/

namespace ContextFree

/-- The bodies of one left-hand side. -/
structure Rule (β : Type) where
  lhs : Name
  bodies : List β
deriving DecidableEq

def countBodies {β : Type} (rules : List (Rule β)) : Nat :=
  rules.foldr (fun rule n => rule.bodies.length + n) 0

/-- A context-free grammar: alphabets, start symbol and rules, each in order of declaration. -/
structure Grammar where
  start : Name
  nonterminals : List Name
  terminals : List Name
  rules : List (Rule Body)
deriving DecidableEq

def SameMembers {α : Type} (xs ys : List α) : Prop :=
  (∀ x ∈ xs, x ∈ ys) ∧ ∀ y ∈ ys, y ∈ xs

instance {α : Type} [DecidableEq α] (xs ys : List α) : Decidable (SameMembers xs ys) :=
  inferInstanceAs (Decidable (_ ∧ _))

namespace Grammar

/-- The bodies of a non-terminal; none, if the grammar has no rule for it. -/
def bodies (G : Grammar) (A : Name) : List Body :=
  match G.rules.find? (·.lhs = A) with
  | some rule => rule.bodies
  | none => []

def leftSides (G : Grammar) : List Name := G.rules.map (·.lhs)

/-- The number of productions, that is, of bodies over all rules. -/
def productionCount (G : Grammar) : Nat := countBodies G.rules

/-- A symbol is declared if the alphabet of its own kind has it. -/
def Declares (G : Grammar) : Symbol → Prop
  | .terminal a => a ∈ G.terminals
  | .nonterminal A => A ∈ G.nonterminals

instance (G : Grammar) : DecidablePred G.Declares
  | .terminal a => inferInstanceAs (Decidable (a ∈ G.terminals))
  | .nonterminal A => inferInstanceAs (Decidable (A ∈ G.nonterminals))

/-- The parts of the grammar fit together. -/
structure WellFormed (G : Grammar) : Prop where
  /-- The start symbol is a declared non-terminal. -/
  start_mem : G.start ∈ G.nonterminals
  /-- No name is declared in both alphabets. -/
  disjoint : ∀ a ∈ G.terminals, a ∉ G.nonterminals
  nonterminals_nodup : G.nonterminals.Nodup
  terminals_nodup : G.terminals.Nodup
  /-- There is one rule for each declared non-terminal, in the order of declaration. -/
  leftSides_eq : G.leftSides = G.nonterminals
  /-- Every symbol of a body is declared in the alphabet of its kind. -/
  declared : ∀ rule ∈ G.rules, ∀ body ∈ rule.bodies, ∀ s ∈ body, G.Declares s
  /-- No non-terminal lists a body twice. -/
  bodies_nodup : ∀ rule ∈ G.rules, rule.bodies.Nodup

/-- The grammars have the same start symbol, the same alphabets and, for the same
non-terminals, rules with the same bodies; the order of all of these may differ. -/
def SameUpToOrder (G H : Grammar) : Prop :=
  G.start = H.start ∧ SameMembers G.nonterminals H.nonterminals ∧
    SameMembers G.terminals H.terminals ∧ SameMembers G.leftSides H.leftSides ∧
    ∀ A ∈ G.leftSides, SameMembers (G.bodies A) (H.bodies A)

instance (G H : Grammar) : Decidable (G.SameUpToOrder H) :=
  inferInstanceAs (Decidable (_ ∧ _))

/-- The non-terminals that the rule of `A` mentions, one for each occurrence. -/
def mentions (G : Grammar) (A : Name) : List Name := (G.bodies A).flatMap Body.nonterminals

/-! ### Bodies of a non-terminal -/

variable {G : Grammar}

theorem bodies_of_not_mem {A : Name} (h : A ∉ G.leftSides) : G.bodies A = [] := by
  rw [bodies, find?_key_eq_none h]

theorem exists_rule_of_mem_bodies {A : Name} {body : Body} (h : body ∈ G.bodies A) :
    ∃ rule ∈ G.rules, rule.lhs = A ∧ body ∈ rule.bodies := by
  unfold bodies at h
  split at h
  · next rule found =>
    have lhs := List.find?_some found
    exact ⟨rule, List.mem_of_find?_eq_some found, by simpa using lhs, h⟩
  · cases h

/-- Where no left-hand side has two rules, the bodies of a name are those of its rule. -/
theorem bodies_of_mem (distinct : G.leftSides.Nodup) {rule : Rule Body} (h : rule ∈ G.rules) :
    G.bodies rule.lhs = rule.bodies := by
  rw [bodies, find?_key_eq distinct h]

end Grammar

end ContextFree

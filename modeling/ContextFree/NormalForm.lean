import ContextFree.Grammar.Listing
import ContextFree.Normalization

/-!
# Chomsky normal form

A grammar is in Chomsky normal form if each of its bodies is one terminal or two non-terminals
(`Grammar.IsNormal`). `NormalGrammar` is the type of such grammars: their bodies cannot have any
other shape. A grammar is read as one of them by `NormalGrammar.ofGrammar`, which names the first
production of another shape, and `NormalGrammar.toGrammar` forgets what the type says. The bodies of
a rule are still listed once each, and the non-terminals are no longer declared but read off the
rules.
-/

namespace ContextFree

/-- One terminal, or two non-terminals. -/
def Body.IsNormal (body : Body) : Prop :=
  (∃ a, body = [.terminal a]) ∨ ∃ B C, body = [.nonterminal B, .nonterminal C]

/-- All bodies of the grammar are one terminal or two non-terminals. -/
def Grammar.IsNormal (G : Grammar) : Prop := ∀ rule ∈ G.rules, ∀ body ∈ rule.bodies, body.IsNormal

inductive NormalBody where
  | leaf (a : Name)
  | pair (B C : Name)
deriving DecidableEq

namespace NormalBody

inductive Misfit where
  | loneNonterminal
  | pairWithTerminal
  | wrongLength
deriving DecidableEq

def Misfit.message : Misfit → String
  | loneNonterminal => "Expected a terminal"
  | pairWithTerminal => "Expected two non-terminals"
  | wrongLength =>
    "CnfWord can only be created from a word with one terminal or two non-terminals"

def ofBody : Body → Except Misfit NormalBody
  | [.terminal a] => .ok (.leaf a)
  | [.nonterminal _] => .error .loneNonterminal
  | [.nonterminal B, .nonterminal C] => .ok (.pair B C)
  | [_, _] => .error .pairWithTerminal
  | _ => .error .wrongLength

def toBody : NormalBody → Body
  | leaf a => [.terminal a]
  | pair B C => [.nonterminal B, .nonterminal C]

def text (b : NormalBody) : String := b.toBody.text

@[simp] theorem ofBody_toBody (b : NormalBody) : ofBody b.toBody = .ok b := by
  cases b <;> rfl

theorem ofBody_eq_ok_iff {body : Body} {b : NormalBody} :
    ofBody body = .ok b ↔ body = b.toBody := by
  constructor
  · intro h
    unfold ofBody at h
    split at h <;> cases h <;> rfl
  · rintro rfl
    exact ofBody_toBody b

theorem exists_ofBody_iff {body : Body} : (∃ b, ofBody body = .ok b) ↔ body.IsNormal := by
  constructor
  · rintro ⟨b, h⟩
    rw [ofBody_eq_ok_iff.mp h]
    cases b with
    | leaf a => exact .inl ⟨a, rfl⟩
    | pair B C => exact .inr ⟨B, C, rfl⟩
  · rintro (⟨a, rfl⟩ | ⟨B, C, rfl⟩)
    · exact ⟨.leaf a, rfl⟩
    · exact ⟨.pair B C, rfl⟩

end NormalBody

/-- A grammar all of whose bodies are in Chomsky normal form. -/
structure NormalGrammar where
  start : Name
  terminals : List Name
  rules : List (Rule NormalBody)
deriving DecidableEq

namespace NormalGrammar

/-- The rule with its bodies in normal form, or its first body that is not. -/
def readRule (rule : Rule Body) : Except Failure (Rule NormalBody) := do
  let bodies ← rule.bodies.mapM fun body =>
    (NormalBody.ofBody body).mapError fun _ => .notNormal rule.lhs body
  return ⟨rule.lhs, bodies.eraseDups⟩

def ofGrammar (G : Grammar) : Except Failure NormalGrammar := do
  let rules ← G.rules.mapM readRule
  return ⟨G.start, G.terminals, rules⟩

def nonterminals (N : NormalGrammar) : List Name := N.rules.map (·.lhs)

def toGrammar (N : NormalGrammar) : Grammar where
  start := N.start
  nonterminals := N.nonterminals
  terminals := N.terminals
  rules := N.rules.map fun rule => ⟨rule.lhs, rule.bodies.map NormalBody.toBody⟩

def productionCount (N : NormalGrammar) : Nat := countBodies N.rules

def definition (N : NormalGrammar) : String :=
  Listing.definition NormalBody.text N.start N.nonterminals N.terminals N.rules

def table (N : NormalGrammar) : String := Listing.table NormalBody.text N.start N.rules

end NormalGrammar

namespace Grammar

/-- The normal form of the grammar, as a grammar in normal form. -/
def normalize (G : Grammar) : Report NormalGrammar := do
  let H ← G.toNormalForm
  .quiet (NormalGrammar.ofGrammar H)

end Grammar

end ContextFree

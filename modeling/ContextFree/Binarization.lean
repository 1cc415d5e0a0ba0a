import ContextFree.NameSupply

/-!
# Binarization

A grammar is brought into binary form by going through its bodies twice.

* **Isolating.** A terminal that stands in a body of two or more symbols is replaced by a fresh
  non-terminal whose only body is that terminal. A terminal that has been met before is replaced by
  the name that it was given then.
* **Peeling.** A body of more than two symbols has its first two symbols replaced by a fresh
  non-terminal whose only body is that pair, again and again until two symbols are left.

Bodies that differ stay different on the way, so that none of them is lost.

Names are asked for where they are needed. A name that has been handed out is a non-terminal from
then on, and so it is one of the names that later ones are compared with. The first name that is not
to be had ends the binarization, and the supply stays as it is by then.
-/

namespace ContextFree

/-- What is at hand while a grammar is binarized. -/
structure Binarizer where
  supply : NameSupply
  /-- The non-terminals of the grammar, and those that have been introduced. -/
  nonterminals : List Name
  /-- The rules of the non-terminals that have been introduced and not been collected yet. -/
  fresh : List (Rule Body)
  events : List Event

/-- A computation with a binarizer. What it has done before it fails stays done. -/
abbrev Binarizing := ExceptT Failure (StateM Binarizer)

namespace Binarizing

variable {α : Type}

def perform (computation : Binarizing α) (state : Binarizer) : Except Failure α × Binarizer :=
  computation.run.run state

/-- Introduces a fresh non-terminal with one body. -/
def introduce (terminals : List Name) (body : Body) : Binarizing Name := do
  let state ← get
  match state.supply.mint state.nonterminals terminals with
  | (supply, .error failure) =>
    set { state with supply }
    throw failure
  | (supply, .ok name) =>
    set {
      supply
      nonterminals := state.nonterminals ++ [name]
      fresh := state.fresh ++ [⟨name, [body]⟩]
      events := state.events ++ [.introducing name body] : Binarizer }
    return name

/-- The rules, and after them those of the non-terminals that have been introduced. -/
def collect (rules : List (Rule Body)) : Binarizing (List (Rule Body)) :=
  modifyGet fun state => (rules ++ state.fresh, { state with fresh := [] })

/-- The names that terminals have been given, in the order in which the terminals were met. -/
abbrev Memo := List (Name × Name)

/-- A terminal becomes a non-terminal, which is introduced when the terminal is met first. -/
def isolateSymbol (terminals : List Name) : Symbol → StateT Memo Binarizing Symbol
  | .nonterminal A => return .nonterminal A
  | .terminal a => do
    match (← get).lookup a with
    | some name => return .nonterminal name
    | none =>
      let name ← introduce terminals [.terminal a]
      modify (· ++ [(a, name)])
      return .nonterminal name

def isolateBody (terminals : List Name) (body : Body) : StateT Memo Binarizing Body :=
  if body.length < 2 then return body else body.mapM (isolateSymbol terminals)

def isolateRule (terminals : List Name) (rule : Rule Body) :
    StateT Memo Binarizing (Rule Body) := do
  return ⟨rule.lhs, ← rule.bodies.mapM (isolateBody terminals)⟩

/-- Peels a body that is given by its first two symbols and the others. -/
def peelFrom (terminals : List Name) (first second : Symbol) : List Symbol → Binarizing Body
  | [] => return [first, second]
  | third :: others => do
    let name ← introduce terminals [first, second]
    peelFrom terminals (.nonterminal name) third others

def peelBody (terminals : List Name) : Body → Binarizing Body
  | first :: second :: others => peelFrom terminals first second others
  | body => return body

def peelRule (terminals : List Name) (rule : Rule Body) : Binarizing (Rule Body) := do
  return ⟨rule.lhs, ← rule.bodies.mapM (peelBody terminals)⟩

/-- The second time: peels the bodies of rules. -/
def peelRules (terminals : List Name) (rules : List (Rule Body)) :
    Binarizing (List (Rule Body)) := do
  collect (← rules.mapM (peelRule terminals))

end Binarizing

namespace Grammar

open Binarizing

/-- The first time: isolates terminals. Answers with the rules, and with the number of terminals
that have been isolated. -/
def isolating (G : Grammar) : Binarizing (List (Rule Body) × Nat) := do
  let (rules, memo) ← (G.rules.mapM (isolateRule G.terminals)).run []
  return (← collect rules, memo.length)

/-- Goes through the bodies twice. The rules of isolated terminals are gone through as well the
second time. -/
def binarizing (G : Grammar) : Binarizing (Grammar × Nat) := do
  let (rules, isolated) ← G.isolating
  let rules ← Binarizing.peelRules G.terminals rules
  return ({ G with nonterminals := (← get).nonterminals, rules }, isolated)

/-- Brings the grammar into binary form with names from a supply. -/
def binarizeWith (G : Grammar) (supply : NameSupply) : NameSupply × Report Grammar :=
  -- numbers below that of the declared non-terminals are passed over
  let state : Binarizer := ⟨supply.advance G.nonterminals.length, G.nonterminals, [], []⟩
  let (outcome, state) := G.binarizing.perform state
  (state.supply, do
    let (H, isolated) ← (⟨state.events, outcome⟩ : Report _)
    .note (.binarized isolated (H.nonterminals.length - G.nonterminals.length))
    return H)

def binarize (G : Grammar) : Report Grammar := (G.binarizeWith .full).2

end Grammar

end ContextFree

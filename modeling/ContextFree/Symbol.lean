import ContextFree.Word

/-!
# Symbols and bodies

A **symbol** is a terminal or a non-terminal, known by its name. A **body** is the right-hand
side of a production: a list of symbols, the empty one standing for the empty word.
-/

namespace ContextFree

inductive Symbol where
  | terminal (a : Name)
  | nonterminal (A : Name)
deriving DecidableEq

namespace Symbol

def name : Symbol → Name
  | terminal a => a
  | nonterminal A => A

def terminal? : Symbol → Option Name
  | terminal a => some a
  | nonterminal _ => none

def nonterminal? : Symbol → Option Name
  | terminal _ => none
  | nonterminal A => some A

end Symbol

abbrev Body := List Symbol

namespace Body

/-- The names of the terminals of a body, one for each occurrence. -/
def terminals (body : Body) : List Name := body.filterMap Symbol.terminal?

/-- The names of the non-terminals of a body, one for each occurrence. -/
def nonterminals (body : Body) : List Name := body.filterMap Symbol.nonterminal?

/-- The non-terminal `B`, if the body is `B` and nothing else. -/
def unitTarget? : Body → Option Name
  | [.nonterminal B] => some B
  | _ => none

def text (body : Body) : String := spell (body.map (·.name.text))

theorem mem_nonterminals {body : Body} {A : Name} :
    A ∈ body.nonterminals ↔ Symbol.nonterminal A ∈ body := by
  simp only [nonterminals, List.mem_filterMap]
  constructor
  · rintro ⟨s, hs, h⟩
    cases s with
    | terminal a => cases h
    | nonterminal B => cases h; exact hs
  · exact fun h => ⟨_, h, rfl⟩

theorem mem_terminals {body : Body} {a : Name} :
    a ∈ body.terminals ↔ Symbol.terminal a ∈ body := by
  simp only [terminals, List.mem_filterMap]
  constructor
  · rintro ⟨s, hs, h⟩
    cases s with
    | terminal b => cases h; exact hs
    | nonterminal B => cases h
  · exact fun h => ⟨_, h, rfl⟩

theorem unitTarget?_eq_some_iff {body : Body} {B : Name} :
    body.unitTarget? = some B ↔ body = [.nonterminal B] := by
  constructor
  · intro h
    unfold unitTarget? at h
    split at h <;> simp_all
  · rintro rfl; rfl

end Body

end ContextFree

import ContextFree.Grammar.Basic

/-!
# What a grammar derives

A body **derives** a word if the word falls into one piece for each symbol of the body: a terminal
stands for itself, and a non-terminal for a word that one of its bodies derives. This is the
language of derivation trees, read from the root downwards; nothing is said about the order in
which non-terminals are replaced.

* `Grammar.Derives` — the words of a body.
* `Grammar.Generates` — the words of a non-terminal.
* `Grammar.derives_append_iff` — the words of two bodies in a row are the words of the one followed
  by words of the other. Everything about longer bodies goes back to this and to the three
  equations for the empty body, a terminal and a non-terminal.
-/

namespace ContextFree

namespace Grammar

variable {G : Grammar}

inductive Derives (G : Grammar) : Body → List Name → Prop where
  | nil : Derives G [] []
  | terminal {a : Name} {rest : Body} {w : List Name} :
      Derives G rest w → Derives G (.terminal a :: rest) (a :: w)
  | nonterminal {A : Name} {body rest : Body} {u v : List Name} :
      body ∈ G.bodies A → Derives G body u → Derives G rest v →
        Derives G (.nonterminal A :: rest) (u ++ v)

def Generates (G : Grammar) (A : Name) (w : List Name) : Prop :=
  ∃ body ∈ G.bodies A, G.Derives body w

theorem derives_nil_iff {w : List Name} : G.Derives [] w ↔ w = [] := by
  constructor
  · intro h
    cases h
    rfl
  · rintro rfl
    exact .nil

theorem derives_terminal_iff {a : Name} {rest : Body} {w : List Name} :
    G.Derives (.terminal a :: rest) w ↔ ∃ v, w = a :: v ∧ G.Derives rest v := by
  constructor
  · intro h
    cases h with
    | terminal h => exact ⟨_, rfl, h⟩
  · rintro ⟨v, rfl, h⟩
    exact .terminal h

theorem derives_nonterminal_iff {A : Name} {rest : Body} {w : List Name} :
    G.Derives (.nonterminal A :: rest) w ↔
      ∃ u v, w = u ++ v ∧ G.Generates A u ∧ G.Derives rest v := by
  constructor
  · intro h
    cases h with
    | nonterminal mem hu hv => exact ⟨_, _, rfl, ⟨_, mem, hu⟩, hv⟩
  · rintro ⟨u, v, rfl, ⟨body, mem, hu⟩, hv⟩
    exact .nonterminal mem hu hv

/-- **Two bodies in a row** derive what the first derives, followed by what the second derives. -/
theorem derives_append_iff {α β : Body} {w : List Name} :
    G.Derives (α ++ β) w ↔ ∃ u v, w = u ++ v ∧ G.Derives α u ∧ G.Derives β v := by
  induction α generalizing w with
  | nil =>
    constructor
    · intro h
      exact ⟨[], w, rfl, .nil, h⟩
    · rintro ⟨u, v, rfl, hu, hv⟩
      rw [derives_nil_iff.mp hu]
      exact hv
  | cons s α ih =>
    rw [List.cons_append]
    cases s with
    | terminal a =>
      constructor
      · intro h
        obtain ⟨x, rfl, hx⟩ := derives_terminal_iff.mp h
        obtain ⟨u, v, rfl, hu, hv⟩ := ih.mp hx
        exact ⟨a :: u, v, rfl, .terminal hu, hv⟩
      · rintro ⟨u, v, rfl, hu, hv⟩
        obtain ⟨x, rfl, hx⟩ := derives_terminal_iff.mp hu
        exact .terminal (ih.mpr ⟨x, v, rfl, hx, hv⟩)
    | nonterminal A =>
      constructor
      · intro h
        obtain ⟨t, x, rfl, hA, hx⟩ := derives_nonterminal_iff.mp h
        obtain ⟨u, v, rfl, hu, hv⟩ := ih.mp hx
        refine ⟨t ++ u, v, (List.append_assoc ..).symm, ?_, hv⟩
        exact derives_nonterminal_iff.mpr ⟨t, u, rfl, hA, hu⟩
      · rintro ⟨u, v, rfl, hu, hv⟩
        obtain ⟨t, x, rfl, hA, hx⟩ := derives_nonterminal_iff.mp hu
        rw [List.append_assoc]
        exact derives_nonterminal_iff.mpr ⟨t, x ++ v, rfl, hA, ih.mpr ⟨x, v, rfl, hx, hv⟩⟩

/-- A body of one non-terminal derives what the non-terminal generates. -/
theorem derives_single_iff {A : Name} {w : List Name} :
    G.Derives [.nonterminal A] w ↔ G.Generates A w := by
  rw [derives_nonterminal_iff]
  constructor
  · rintro ⟨u, v, rfl, hA, hv⟩
    rw [derives_nil_iff.mp hv, List.append_nil]
    exact hA
  · intro h
    exact ⟨w, [], (List.append_nil w).symm, h, .nil⟩

end Grammar

end ContextFree

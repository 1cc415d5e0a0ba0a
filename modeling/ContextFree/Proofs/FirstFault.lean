import ContextFree.Grammar.Declaration
import Mathlib.Tactic.MkIffOfInductiveProp

/-!
# The first fault of a declaration

The parts of a declaration fit together (`Grammar.PartsFit`) if the start symbol is a declared
non-terminal, the alphabets share no name, and each row has a declared left-hand side and bodies of
declared symbols. Parts that fit make a grammar, and nothing of what is listed is lost in it but
repetitions (`Grammar.IsMadeOf`).

A declaration can break these rules in several ways at once, and each of them at several places.
Only one fault is reported, and `Grammar.FirstFault` says which one it is, without regard to how it
is found. The rules are put in an order, and the fault breaks the first rule that is broken at all;
where a rule is broken at several places, the fault lies at the first of them. So there is always
one fault to report when the parts do not fit, and never two: a declaration is refused with a fault
if and only if that fault is the first one (`Grammar.ofRows?_outcome`).
-/

namespace ContextFree

namespace Grammar

/-- The symbol is declared in the alphabet of its kind. -/
def IsDeclaredIn (nonterminals terminals : List Name) : Symbol → Prop
  | .terminal a => a ∈ terminals
  | .nonterminal A => A ∈ nonterminals

/-- The row belongs to a declared non-terminal and gives it bodies of declared symbols. -/
@[mk_iff]
structure RowFits (nonterminals terminals : List Name) (row : Rule Body) : Prop where
  lhs_mem : row.lhs ∈ nonterminals
  declared : ∀ body ∈ row.bodies, ∀ s ∈ body, IsDeclaredIn nonterminals terminals s

/-- The parts of a declaration fit together. -/
@[mk_iff]
structure PartsFit (nonterminals terminals : List Name) (rows : List (Rule Body)) (start : Name) :
    Prop where
  /-- The start symbol is a declared non-terminal. -/
  start_mem : start ∈ nonterminals
  /-- No name is declared in both alphabets. -/
  disjoint : ∀ a ∈ terminals, a ∉ nonterminals
  rowFits : ∀ row ∈ rows, RowFits nonterminals terminals row

/-- What is wrong with a row that does not fit. -/
inductive RowFault (nonterminals terminals : List Name) (row : Rule Body) : Malformed → Prop
  /-- The left-hand side comes before the bodies. -/
  | undeclaredLeftSide (undeclared : row.lhs ∉ nonterminals) :
      RowFault nonterminals terminals row (.undeclaredLeftSide row.lhs)
  /-- Of the bodies, the first one with a symbol that is not declared, and of its symbols the first
  one that is not. -/
  | undeclaredSymbol {body : Body} {s : Symbol} (declared : row.lhs ∈ nonterminals)
      (firstBody : IsFirst (fun body => ∃ s ∈ body, ¬IsDeclaredIn nonterminals terminals s)
        row.bodies body)
      (firstSymbol : IsFirst (fun s => ¬IsDeclaredIn nonterminals terminals s) body s) :
      RowFault nonterminals terminals row
        (.undeclaredSymbol row.lhs (body.map (·.name.text)) s.name.text)

/-- The fault of a declaration that is reported. -/
inductive FirstFault (nonterminals terminals : List Name) (rows : List (Rule Body)) (start : Name) :
    Malformed → Prop
  /-- The start symbol comes before everything else. -/
  | missingStart (missing : start ∉ nonterminals) :
      FirstFault nonterminals terminals rows start (.missingStart start)
  /-- Then the alphabets: the first terminal that is also a non-terminal. -/
  | overlappingAlphabets {a : Name} (start_mem : start ∈ nonterminals)
      (first : IsFirst (· ∈ nonterminals) terminals a) :
      FirstFault nonterminals terminals rows start (.overlappingAlphabets a)
  /-- Then the rows: the first one that does not fit. -/
  | row {row : Rule Body} {fault : Malformed} (start_mem : start ∈ nonterminals)
      (disjoint : ∀ a ∈ terminals, a ∉ nonterminals)
      (first : IsFirst (fun row => ¬RowFits nonterminals terminals row) rows row)
      (rowFault : RowFault nonterminals terminals row fault) :
      FirstFault nonterminals terminals rows start fault

/-- The grammar has what the parts list, in the same order and each thing once. -/
structure IsMadeOf (G : Grammar) (nonterminals terminals : List Name) (rows : List (Rule Body))
    (start : Name) : Prop where
  start_eq : G.start = start
  nonterminals_eq : G.nonterminals = nonterminals.eraseDups
  terminals_eq : G.terminals = terminals.eraseDups
  /-- There is one rule for each non-terminal, in the order of declaration. -/
  leftSides_eq : G.leftSides = nonterminals.eraseDups
  /-- A non-terminal has the bodies of all its rows, in the order of the rows. -/
  bodies_eq : ∀ A ∈ nonterminals,
    G.bodies A = ((rows.filter (·.lhs = A)).flatMap (·.bodies)).eraseDups

variable {nonterminals terminals : List Name} {rows : List (Rule Body)} {row : Rule Body}
  {body : Body} {lhs start : Name} {fault : Malformed}

/-! ### Parts that fit -/

theorem isDeclared_iff {s : Symbol} :
    isDeclared nonterminals terminals s ↔ IsDeclaredIn nonterminals terminals s := by
  cases s with
  | terminal a => exact List.contains_iff_mem
  | nonterminal A => exact List.contains_iff_mem

theorem bodyFault?_isDeclared_eq_none_iff :
    bodyFault? (isDeclared nonterminals terminals) lhs body = none ↔
      ∀ s ∈ body, IsDeclaredIn nonterminals terminals s := by
  simp only [bodyFault?_eq_none_iff, isDeclared_iff]

theorem rowFault?_isDeclared_eq_none_iff :
    rowFault? (isDeclared nonterminals terminals) row = none ↔
      RowFits nonterminals terminals row := by
  simp only [rowFault?_eq_none_iff, isDeclared_iff, rowFits_iff]
  rfl

theorem fault?_eq_none_iff_partsFit :
    fault? nonterminals terminals rows start = none ↔
      PartsFit nonterminals terminals rows start := by
  simp only [fault?_eq_none_iff, isDeclared_iff, partsFit_iff, rowFits_iff]

/-! ### A row that does not fit -/

/-- The fault of a body is its first symbol that is not declared. -/
theorem bodyFault?_eq_some_iff :
    bodyFault? (isDeclared nonterminals terminals) lhs body = some fault ↔
      ∃ s, IsFirst (fun s => ¬IsDeclaredIn nonterminals terminals s) body s ∧
        .undeclaredSymbol lhs (body.map (·.name.text)) s.name.text = fault := by
  have undeclared (s : Symbol) : (!isDeclared nonterminals terminals s) = true ↔
      ¬IsDeclaredIn nonterminals terminals s := by
    rw [Bool.not_eq_true', ← Bool.not_eq_true, isDeclared_iff]
  simp only [bodyFault?, Option.map_eq_some_iff, find?_eq_some_iff_isFirst, undeclared]

theorem rowFault_iff_of_undeclared (undeclared : row.lhs ∉ nonterminals) :
    RowFault nonterminals terminals row fault ↔ .undeclaredLeftSide row.lhs = fault := by
  refine ⟨fun rowFault => ?_, ?_⟩
  · cases rowFault with
    | undeclaredLeftSide _ => rfl
    | undeclaredSymbol declared _ _ => exact absurd declared undeclared
  · rintro rfl
    exact .undeclaredLeftSide undeclared

/-- The left-hand side has no part in the fault if it is declared. -/
theorem rowFault_iff_of_declared (declared : row.lhs ∈ nonterminals) :
    RowFault nonterminals terminals row fault ↔
      ∃ body, IsFirst (fun body => ∃ s ∈ body, ¬IsDeclaredIn nonterminals terminals s)
          row.bodies body ∧
        ∃ s, IsFirst (fun s => ¬IsDeclaredIn nonterminals terminals s) body s ∧
          .undeclaredSymbol row.lhs (body.map (·.name.text)) s.name.text = fault := by
  refine ⟨fun rowFault => ?_, ?_⟩
  · cases rowFault with
    | undeclaredLeftSide undeclared => exact absurd declared undeclared
    | undeclaredSymbol _ firstBody firstSymbol => exact ⟨_, firstBody, _, firstSymbol, rfl⟩
  · rintro ⟨body, firstBody, s, firstSymbol, rfl⟩
    exact .undeclaredSymbol declared firstBody firstSymbol

/-- The fault of a row is that of its left-hand side, or else of the first body with a fault. -/
theorem rowFault?_eq_some_iff :
    rowFault? (isDeclared nonterminals terminals) row = some fault ↔
      RowFault nonterminals terminals row fault := by
  -- the body in which a symbol is found is the first one that has any
  have faulty : (bodyFault? (isDeclared nonterminals terminals) row.lhs · ≠ none) =
      fun body => ∃ s ∈ body, ¬IsDeclaredIn nonterminals terminals s := by
    funext body
    simp only [ne_eq, bodyFault?_isDeclared_eq_none_iff, Classical.not_forall, exists_prop]
  unfold rowFault?
  simp only [isDeclared_iff, IsDeclaredIn]
  split
  · next declared =>
    rw [rowFault_iff_of_declared declared, findSome?_eq_some_iff_isFirst, faulty]
    simp only [bodyFault?_eq_some_iff]
  · next undeclared =>
    rw [rowFault_iff_of_undeclared undeclared, Option.some_inj]

/-! ### Parts that do not fit -/

theorem firstFault_iff_of_missing (missing : start ∉ nonterminals) :
    FirstFault nonterminals terminals rows start fault ↔ .missingStart start = fault := by
  refine ⟨fun firstFault => ?_, ?_⟩
  · -- all other faults are looked for only if the start symbol is declared
    cases firstFault with
    | missingStart _ => rfl
    | overlappingAlphabets start_mem _ => exact absurd start_mem missing
    | row start_mem _ _ _ => exact absurd start_mem missing
  · rintro rfl
    exact .missingStart missing

theorem firstFault_iff_of_shared {a : Name} (start_mem : start ∈ nonterminals)
    (first : IsFirst (· ∈ nonterminals) terminals a) :
    FirstFault nonterminals terminals rows start fault ↔ .overlappingAlphabets a = fault := by
  refine ⟨fun firstFault => ?_, ?_⟩
  · -- there is only one first terminal that is shared
    cases firstFault with
    | missingStart missing => exact absurd start_mem missing
    | overlappingAlphabets _ other => rw [first.unique other]
    | row _ disjoint _ _ => exact absurd first.holds (disjoint a first.mem)
  · rintro rfl
    exact .overlappingAlphabets start_mem first

/-- Nothing but the rows has a part in the fault if the start symbol and the alphabets are as they
should be. -/
theorem firstFault_iff_of_disjoint (start_mem : start ∈ nonterminals)
    (disjoint : ∀ a ∈ terminals, a ∉ nonterminals) :
    FirstFault nonterminals terminals rows start fault ↔
      ∃ row, IsFirst (fun row => ¬RowFits nonterminals terminals row) rows row ∧
        RowFault nonterminals terminals row fault := by
  refine ⟨fun firstFault => ?_, ?_⟩
  · cases firstFault with
    | missingStart missing => exact absurd start_mem missing
    | overlappingAlphabets _ first => exact absurd first.holds (disjoint _ first.mem)
    | row _ _ first rowFault => exact ⟨_, first, rowFault⟩
  · rintro ⟨row, first, rowFault⟩
    exact .row start_mem disjoint first rowFault

/-- **The fault that is found is the first one.** -/
theorem fault?_eq_some_iff :
    fault? nonterminals terminals rows start = some fault ↔
      FirstFault nonterminals terminals rows start fault := by
  have unfit : (rowFault? (isDeclared nonterminals terminals) · ≠ none) =
      fun row => ¬RowFits nonterminals terminals row := by
    funext row
    rw [ne_eq, rowFault?_isDeclared_eq_none_iff]
  unfold fault?
  split
  · next missing => rw [firstFault_iff_of_missing missing, Option.some_inj]
  · next present =>
    have start_mem := Decidable.not_not.mp present
    -- either some terminal is also a non-terminal, or the rows are looked at
    split
    · next a found =>
      have first := find?_eq_some_iff_isFirst.mp found
      simp only [List.contains_iff_mem] at first
      rw [firstFault_iff_of_shared start_mem first, Option.some_inj]
    · next none =>
      have disjoint : ∀ a ∈ terminals, a ∉ nonterminals := by
        simpa only [List.find?_eq_none, List.contains_iff_mem] using none
      rw [firstFault_iff_of_disjoint start_mem disjoint, findSome?_eq_some_iff_isFirst, unfit]
      simp only [rowFault?_eq_some_iff]

/-- A declaration is refused with its first fault. -/
theorem ofRows?_eq_error_iff :
    ofRows? nonterminals terminals rows start = .error fault ↔
      FirstFault nonterminals terminals rows start fault := by
  rw [← fault?_eq_some_iff, ofRows?_eq]
  cases fault? nonterminals terminals rows start with
  | none => exact ⟨nofun, nofun⟩
  | some own => rw [Option.elim_some, Except.error.injEq, Option.some.injEq]

/-! ### What a declaration comes to -/

/-- The table of the rows has the bodies of each non-terminal in one place. -/
theorem bodies_of_rules_eq_gatherAll {G : Grammar} {A : Name}
    (rules : G.rules = gatherAll nonterminals.eraseDups rows) (mem : A ∈ nonterminals) :
    G.bodies A = gather rows A := by
  have distinct : G.leftSides.Nodup := by
    rw [leftSides, rules, lhs_gatherAll]
    exact nodup_eraseDups nonterminals
  have rule : (⟨A, gather rows A⟩ : Rule Body) ∈ G.rules := by
    rw [rules]
    exact List.mem_map_of_mem (List.mem_eraseDups.mpr mem)
  exact bodies_of_mem distinct rule

/-- **What a declaration comes to.** It makes a grammar if and only if its parts fit together; the
grammar is then made of these parts. Otherwise the declaration is refused with its first fault. -/
theorem ofRows?_outcome (nonterminals terminals : List Name) (rows : List (Rule Body))
    (start : Name) :
    ((∃ G, ofRows? nonterminals terminals rows start = .ok G) ↔
        PartsFit nonterminals terminals rows start) ∧
      (∀ G, ofRows? nonterminals terminals rows start = .ok G →
        G.IsMadeOf nonterminals terminals rows start) ∧
      ∀ fault, ofRows? nonterminals terminals rows start = .error fault ↔
        FirstFault nonterminals terminals rows start fault := by
  refine ⟨?_, ?_, fun fault => ofRows?_eq_error_iff⟩
  · rw [← fault?_eq_none_iff_partsFit, ofRows?_eq]
    cases fault? nonterminals terminals rows start with
    | none => exact ⟨fun _ => rfl, fun _ => ⟨_, rfl⟩⟩
    | some fault => exact ⟨nofun, nofun⟩
  · intro G
    rw [ofRows?_eq]
    cases fault? nonterminals terminals rows start with
    | none =>
      rintro ⟨⟩
      refine ⟨rfl, rfl, rfl, lhs_gatherAll _ _, ?_⟩
      exact fun A mem => bodies_of_rules_eq_gatherAll rfl mem
    | some fault => exact nofun

/-- The rows `S → b | ε`, `A → S` and `S → ε | A`. -/
def scattered : List (Rule Body) :=
  let S := Symbol.nonterminal (.ofCons 'S' [])
  let A := Symbol.nonterminal (.ofCons 'A' [])
  let b := Symbol.terminal (.ofCons 'b' [])
  [⟨.ofCons 'S' [], [[b], []]⟩, ⟨.ofCons 'A' [], [[S]]⟩, ⟨.ofCons 'S' [], [[], [A]]⟩]

/-- The rows make a grammar with the two non-terminals, whose bodies are brought together. With `S`
alone as a non-terminal there are two faults; the earlier one is the undeclared left-hand side. -/
theorem ofRows?_outcome_scattered :
    (∃ G, ofRows? [.ofCons 'S' [], .ofCons 'A' [], .ofCons 'S' []] [.ofCons 'b' []] scattered
        (.ofCons 'S' []) = .ok G ∧
      G.nonterminals = [.ofCons 'S' [], .ofCons 'A' []] ∧
      G.bodies (.ofCons 'S' []) =
        [[.terminal (.ofCons 'b' [])], [], [.nonterminal (.ofCons 'A' [])]]) ∧
    FirstFault [.ofCons 'S' []] [.ofCons 'b' []] scattered (.ofCons 'S' [])
      (.undeclaredLeftSide (.ofCons 'A' [])) := by
  obtain ⟨exists_iff, made, -⟩ := ofRows?_outcome [.ofCons 'S' [], .ofCons 'A' [], .ofCons 'S' []]
    [.ofCons 'b' []] scattered (.ofCons 'S' [])
  have fit := fault?_eq_none_iff_partsFit.mp (rfl : fault? [.ofCons 'S' [], .ofCons 'A' [],
    .ofCons 'S' []] [.ofCons 'b' []] scattered (.ofCons 'S' []) = none)
  obtain ⟨G, declared⟩ := exists_iff.mpr fit
  refine ⟨⟨G, declared, ?_, ?_⟩, ((ofRows?_outcome _ _ _ _).2.2 _).mp rfl⟩
  · rw [(made G declared).nonterminals_eq]
    decide
  · rw [(made G declared).bodies_eq _ List.mem_cons_self]
    decide

end Grammar

end ContextFree

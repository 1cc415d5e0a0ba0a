import ContextFree.Proofs.NormalGrammar

/-!
# Reading a grammar in normal form

What is read is the same grammar, seen by its own parts (`NormalGrammar.IsViewOf`): start symbol,
alphabets, rules and bodies are those of the grammar, in their order, although the non-terminals are
not kept beside the rules and the bodies are of another type. So it is also written out in the same
way. That a body can be written in one way only is what makes this true: no two bodies of a rule
become one when they are read.

Reading fails if there is a body that is not normal. The productions are looked at in their order,
and the failure names the first of them that has such a body (`Grammar.ofGrammar_eq_error_iff`).
-/

namespace ContextFree

/-! ### Writing out -/

namespace Listing

open NormalGrammar (writeRule)

theorem alternatives_writeRule (rule : Rule NormalBody) :
    alternatives Body.text (writeRule rule) = alternatives NormalBody.text rule := by
  rw [alternatives, alternatives, writeRule, List.map_map]
  rfl

theorem definition_writeRule (start : Name) (nonterminals terminals : List Name)
    (rules : List (Rule NormalBody)) :
    definition Body.text start nonterminals terminals (rules.map writeRule) =
      definition NormalBody.text start nonterminals terminals rules := by
  unfold definition
  simp only [List.map_map, Function.comp_def, alternatives_writeRule]
  rfl

theorem table_writeRule (start : Name) (rules : List (Rule NormalBody)) :
    table Body.text start (rules.map writeRule) = table NormalBody.text start rules := by
  unfold table
  simp only [List.map_map, Function.comp_def, alternatives_writeRule]
  rfl

end Listing

theorem countBodies_writeRule (rules : List (Rule NormalBody)) :
    countBodies (rules.map NormalGrammar.writeRule) = countBodies rules := by
  unfold countBodies
  rw [List.foldr_map]
  simp only [NormalGrammar.writeRule, List.length_map]

namespace NormalGrammar

/-- The grammar in normal form is the other one, seen by its own parts. -/
structure IsViewOf (N : NormalGrammar) (G : Grammar) : Prop where
  start_eq : N.start = G.start
  terminals_eq : N.terminals = G.terminals
  /-- The left-hand sides of the rules are the declared non-terminals, in their order. -/
  nonterminals_eq : N.nonterminals = G.nonterminals
  /-- The rules are those of the grammar and list the same bodies, all in their order. -/
  rules_eq : N.rules.map (fun rule => ⟨rule.lhs, rule.bodies.map NormalBody.toBody⟩) = G.rules
  productionCount_eq : N.productionCount = G.productionCount
  definition_eq : N.definition = G.definition
  table_eq : N.table = G.table

/-- A grammar in normal form is a view of the grammar that it stands for. -/
theorem isViewOf_toGrammar (N : NormalGrammar) : N.IsViewOf N.toGrammar where
  start_eq := rfl
  terminals_eq := rfl
  nonterminals_eq := rfl
  rules_eq := rfl
  productionCount_eq := (countBodies_writeRule N.rules).symm
  definition_eq := (Listing.definition_writeRule _ _ _ N.rules).symm
  table_eq := (Listing.table_writeRule _ N.rules).symm

/-! ### Productions that cannot be read -/

variable {G : Grammar} {failure : Failure}

theorem readProduction_eq_error_iff {lhs : Name} {body : Body} :
    readProduction lhs body = .error failure ↔ ¬body.IsNormal ∧ failure = .notNormal lhs body := by
  rw [← @exists_readProduction_iff lhs]
  cases read : readProduction lhs body with
  | error own =>
    -- whatever is wrong with the body, the failure names the production
    obtain ⟨_, _, rfl⟩ := mapError_eq_error_iff.mp read
    rw [Except.error.injEq, eq_comm]
    exact (and_iff_right nofun).symm
  | ok b =>
    constructor
    · exact nofun
    · rintro ⟨none, _⟩
      exact absurd ⟨b, rfl⟩ none

end NormalGrammar

namespace Grammar

open NormalGrammar

variable {G : Grammar} {N : NormalGrammar} {failure : Failure}

/-- The left-hand side and the body of each production, rule by rule and in order. -/
def productions (G : Grammar) : List (Name × Body) :=
  G.rules.flatMap fun rule => rule.bodies.map (rule.lhs, ·)

/-- Of all productions this is the first one whose body is not normal. -/
def IsFirstMisfit (G : Grammar) (A : Name) (body : Body) : Prop :=
  IsFirst (fun production => ¬production.2.IsNormal) G.productions (A, body)

/-- Reading goes over the productions, whatever rules they belong to. -/
theorem ofGrammar_eq_error_iff_mapM :
    ofGrammar G = .error failure ↔
      G.productions.mapM (fun production => readProduction production.1 production.2)
        = .error failure := by
  have rule (rule : Rule Body) (own : Failure) :
      readRule rule = .error own ↔
        (rule.bodies.map (rule.lhs, ·)).mapM
          (fun production => readProduction production.1 production.2) = .error own := by
    rw [readRule_eq, bind_pure_eq_error_iff, List.mapM_map]
    rfl
  calc ofGrammar G = .error failure
      ↔ G.rules.mapM readRule = .error failure := bind_pure_eq_error_iff
    _ ↔ G.rules.mapM (fun rule => (rule.bodies.map (rule.lhs, ·)).mapM
          fun production => readProduction production.1 production.2) = .error failure :=
        mapM_eq_error_congr fun r _ => rule r
    _ ↔ G.productions.mapM (fun production => readProduction production.1 production.2)
          = .error failure := mapM_flatMap_eq_error_iff.symm

/-- **The first production that is not normal** is the one that reading fails at. -/
theorem ofGrammar_eq_error_iff :
    ofGrammar G = .error failure ↔
      ∃ A body, G.IsFirstMisfit A body ∧ failure = .notNormal A body := by
  have fails (production : Name × Body) :
      Fails (fun production => readProduction production.1 production.2) production ↔
        ¬production.2.IsNormal := by
    simp only [Fails, readProduction_eq_error_iff, exists_and_left, exists_eq, and_true]
  rw [ofGrammar_eq_error_iff_mapM, mapM_eq_error_iff]
  simp only [IsFirst.congr fun production _ => fails production, readProduction_eq_error_iff]
  constructor
  · rintro ⟨⟨A, body⟩, first, _, rfl⟩
    exact ⟨A, body, first, rfl⟩
  · rintro ⟨A, body, first, rfl⟩
    obtain ⟨_, _, _, _, misfit⟩ := id first
    exact ⟨(A, body), first, misfit, rfl⟩

/-- **Reading a grammar in normal form.** A well-formed grammar can be read if and only if all of
its bodies are normal; otherwise the first production whose body is not normal is named. What is
read is the same grammar: its parts are the same, in the same order, and so are the texts that it is
written out in. -/
theorem WellFormed.isViewOf_of_ofGrammar (wf : G.WellFormed) :
    ((∃ N, ofGrammar G = .ok N) ↔ G.IsNormal) ∧
    (∀ failure, ofGrammar G = .error failure ↔
      ∃ A body, G.IsFirstMisfit A body ∧ failure = .notNormal A body) ∧
    ∀ N, ofGrammar G = .ok N → N.IsViewOf G := by
  refine ⟨exists_ofGrammar_iff, fun failure => ofGrammar_eq_error_iff, ?_⟩
  intro N read
  obtain rfl := wf.ofGrammar_eq_ok_iff.mp read
  exact isViewOf_toGrammar N

/-- The grammar `S → A B | a`, `A → a`, `B → A B | b` in normal form. -/
def pairs : NormalGrammar where
  start := .ofCons 'S' []
  terminals := [.ofCons 'a' [], .ofCons 'b' []]
  rules := [
    ⟨.ofCons 'S' [], [.pair (.ofCons 'A' []) (.ofCons 'B' []), .leaf (.ofCons 'a' [])]⟩,
    ⟨.ofCons 'A' [], [.leaf (.ofCons 'a' [])]⟩,
    ⟨.ofCons 'B' [], [.pair (.ofCons 'A' []) (.ofCons 'B' []), .leaf (.ofCons 'b' [])]⟩]

/-- This grammar is read as it is, and of the grammar of brackets the first body is refused. -/
theorem pairs_isViewOf :
    (pairs.toGrammar.WellFormed ∧ ofGrammar pairs.toGrammar = .ok pairs ∧
      pairs.productionCount = 5 ∧ pairs.definition = pairs.toGrammar.definition) ∧
    brackets.WellFormed ∧ ofGrammar brackets = .error (.notNormal (.ofCons 'S' [])
      [.terminal (.ofCons '(' []), .nonterminal (.ofCons 'S' []),
        .terminal (.ofCons ')' []), .nonterminal (.ofCons 'S' [])]) := by
  have wf : pairs.toGrammar.WellFormed := wellFormed_iff_ofRows?_eq_ok.mpr rfl
  have read : ofGrammar pairs.toGrammar = .ok pairs := by decide +kernel
  have view := wf.isViewOf_of_ofGrammar.2.2 pairs read
  refine ⟨⟨wf, read, rfl, view.definition_eq⟩, brackets_wellFormed, ?_⟩
  refine (brackets_wellFormed.isViewOf_of_ofGrammar.2.1 _).mpr ⟨_, _, ?_, rfl⟩
  refine (isFirst_cons_of_pos ?_).mpr rfl
  -- the body is longer than any body in normal form
  rintro (⟨_, eq⟩ | ⟨_, _, eq⟩) <;> cases eq

end Grammar

end ContextFree

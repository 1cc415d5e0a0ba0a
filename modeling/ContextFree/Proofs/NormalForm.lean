import ContextFree.Proofs.NormalGrammar
import ContextFree.Proofs.Run

/-!
# Runs that end in normal form

A grammar is in normal form if no body is empty, no body is a single non-terminal, and the bodies
of at least two symbols are pairs of non-terminals (`Grammar.WellFormed.isNormal_iff`). Each of the
three is brought about by one stage, whatever the grammar. Not every stage keeps them, though:

* No stage makes an empty body (`Grammar.Leads.nil_notMem`), and none spoils pairs, since what is
  left of a pair is shorter (`Grammar.Leads.isBinary`).
* But what is left of a pair may be a single non-terminal. Only where no body is empty nothing is
  taken out of a body, so it is the first and the second property together that every stage keeps
  (`Grammar.Leads.isProper`).

This is why the elimination of empty bodies has to come before the removal of unit productions,
while binarization may come at any time (`Grammar.WellFormed.isNormal_run`).
-/

namespace ContextFree

namespace Grammar

variable {G H : Grammar} {stage : Stage} {A : Name} {body : Body}

/-! ### What makes a grammar normal -/

/-- No body is empty, and none is a single non-terminal. -/
structure IsProper (G : Grammar) : Prop where
  nil_notMem : ∀ A, [] ∉ G.bodies A
  unit_notMem : ∀ A B, [.nonterminal B] ∉ G.bodies A

/-- A body of at least two symbols is a pair of non-terminals. -/
def IsBinary (G : Grammar) : Prop := ∀ A, ∀ body ∈ G.bodies A, 2 ≤ body.length → body.IsPair

theorem WellFormed.isNormal_iff (wf : G.WellFormed) :
    G.IsNormal ↔ G.IsProper ∧ G.IsBinary := by
  refine ⟨fun normal => ⟨⟨normal.nil_notMem_bodies, ?_⟩, ?_⟩, ?_⟩
  · intro A B mem
    rcases normal.of_mem_bodies mem with ⟨a, eq⟩ | ⟨C, D, eq⟩ <;> cases eq
  · intro A body mem long
    rcases normal.of_mem_bodies mem with ⟨a, rfl⟩ | pair
    · exact absurd long (by simp)
    · exact pair
  · rintro ⟨proper, binary⟩ rule hrule body hbody
    have mem : body ∈ G.bodies rule.lhs := wf.mem_bodies hrule hbody
    -- the first property is for no symbol, the second for one, and the third for more
    match body, mem with
    | [], mem => exact absurd mem (proper.nil_notMem _)
    | [.terminal a], _ => exact .inl ⟨a, rfl⟩
    | [.nonterminal B], mem => exact absurd mem (proper.unit_notMem _ B)
    | s :: t :: rest, mem => exact .inr (binary _ _ mem (by simp))

/-! ### Where bodies come from -/

/-- **The bodies after a stage**: old ones, perhaps of another non-terminal, what is left of old
ones without nullable non-terminals, and bodies in normal form. -/
theorem Leads.cases_of_mem_bodies (wf : G.WellFormed) (leads : G.Leads stage H)
    (mem : body ∈ H.bodies A) :
    (∃ B, body ∈ G.bodies B) ∨
      (body ≠ [] ∧ ∃ old ∈ G.bodies A, body ∈ old.variants G.nullables) ∨ body.IsNormal := by
  cases leads with
  | eliminateEmpty =>
    rw [bodies_withoutEmpty] at mem
    exact .inr (.inl (mem_nonemptyVariants_iff.mp mem))
  | removeUnits =>
    rw [bodies_withoutUnits] at mem
    obtain ⟨_, B, _, mem⟩ := mem_properBodies_iff.mp mem
    exact .inl ⟨B, mem⟩
  | removeInaccessible =>
    rw [bodies_restrict] at mem
    split at mem
    · exact .inl ⟨A, mem⟩
    · cases mem
  | removeNonproductive => exact .inl ⟨A, (mem_bodies_productivePart_iff.mp mem).2.1⟩
  | binarize room =>
    obtain ⟨rule, hrule, _, hbody⟩ := exists_rule_of_mem_bodies mem
    rcases cases_of_mem_binaryForm hrule hbody with pair | terminal | ⟨_, old, hold, hbody⟩
    · exact .inr (.inr (.inr pair))
    · exact .inr (.inr (.inl terminal))
    · -- short bodies are not touched
      exact .inl ⟨old.lhs, wf.mem_bodies hold hbody⟩

/-- No stage makes an empty body. -/
theorem Leads.nil_notMem (wf : G.WellFormed) (leads : G.Leads stage H)
    (nonempty : ∀ A, [] ∉ G.bodies A) : ∀ A, [] ∉ H.bodies A := by
  intro A mem
  rcases leads.cases_of_mem_bodies wf mem with ⟨B, mem⟩ | ⟨ne, _⟩ | ⟨a, eq⟩ | ⟨C, D, eq⟩
  · exact nonempty B mem
  · exact ne rfl
  · cases eq
  · cases eq

/-- No stage makes a unit production where there is none and no body is empty. -/
theorem Leads.isProper (wf : G.WellFormed) (leads : G.Leads stage H) (proper : G.IsProper) :
    H.IsProper := by
  refine ⟨leads.nil_notMem wf proper.nil_notMem, fun A B mem => ?_⟩
  rcases leads.cases_of_mem_bodies wf mem with
    ⟨C, mem⟩ | ⟨_, old, mem, variant⟩ | ⟨a, eq⟩ | ⟨C, D, eq⟩
  · exact proper.unit_notMem C B mem
  · -- nothing generates the empty word, so nothing is taken out of a body
    rw [wf.nullables_eq_nil proper.nil_notMem, Body.variants_nil, List.mem_singleton] at variant
    rw [← variant] at mem
    exact proper.unit_notMem A B mem
  · cases eq
  · cases eq

/-- No stage makes a long body that is not a pair. -/
theorem Leads.isBinary (wf : G.WellFormed) (leads : G.Leads stage H) (binary : G.IsBinary) :
    H.IsBinary := by
  intro A body mem long
  rcases leads.cases_of_mem_bodies wf mem with ⟨B, mem⟩ | ⟨_, old, mem, variant⟩ | ⟨a, rfl⟩ | pair
  · exact binary B body mem long
  · have part := Body.sublist_of_mem_variants variant
    have pair := binary A old mem (Nat.le_trans long part.length_le)
    -- a part of two symbols is all of the pair
    have whole : body = old := by
      obtain ⟨C, D, rfl⟩ := pair
      exact part.eq_of_length_le long
    exact whole ▸ pair
  · exact absurd long (by simp)
  · exact pair

/-! ### The stages that bring it about -/

theorem Leads.nil_notMem_of_eliminateEmpty (leads : G.Leads .eliminateEmpty H) (A : Name) :
    [] ∉ H.bodies A := by
  cases leads
  exact nil_notMem_bodies_withoutEmpty A

theorem Leads.unit_notMem_of_removeUnits (leads : G.Leads .removeUnits H) (A B : Name) :
    [.nonterminal B] ∉ H.bodies A := by
  cases leads
  rw [bodies_withoutUnits, mem_properBodies_iff]
  exact fun mem => Option.some_ne_none B mem.1

theorem Leads.isBinary_of_binarize (leads : G.Leads .binarize H) : H.IsBinary := by
  cases leads
  intro A body mem long
  obtain ⟨rule, hrule, _, hbody⟩ := exists_rule_of_mem_bodies mem
  rcases cases_of_mem_binaryForm hrule hbody with pair | ⟨a, rfl⟩ | ⟨short, _⟩
  · exact pair
  · exact absurd long (by simp)
  · exact absurd long (Nat.not_le_of_lt short)

/-! ### Runs -/

variable {steps : List (Stage × NameSupply)}

theorem IsProper.run (proper : G.IsProper) (wf : G.WellFormed)
    (steps : List (Stage × NameSupply)) : (G.run steps).IsProper :=
  wf.run_induction (fun _ _ _ wf leads => leads.isProper wf) proper steps

theorem IsBinary.run (binary : G.IsBinary) (wf : G.WellFormed)
    (steps : List (Stage × NameSupply)) : (G.run steps).IsBinary :=
  wf.run_induction (fun _ _ _ wf leads => leads.isBinary wf) binary steps

/-- An elimination of empty bodies and a later removal of unit productions make all later grammars
proper. -/
theorem WellFormed.isProper_run (wf : G.WellFormed)
    (order : [Stage.eliminateEmpty, .removeUnits].Sublist (steps.map (·.1))) :
    (G.run steps).IsProper := by
  obtain ⟨before, s, rest, rfl, units⟩ := exists_of_cons_sublist order
  obtain ⟨between, t, later, rfl, _⟩ := exists_of_cons_sublist units
  rw [run_append, run_cons, run_append, run_cons]
  -- the empty bodies go first, and do not come back before the unit productions go
  have wfBefore := wf.run before
  have first := wfBefore.leads_after .eliminateEmpty nofun s
  have wfFirst := first.wellFormed wfBefore
  have nonempty : ∀ A, [] ∉ (((G.run before).after .eliminateEmpty s).run between).bodies A :=
    wfFirst.run_induction (fun _ _ _ wf leads => leads.nil_notMem wf)
      first.nil_notMem_of_eliminateEmpty between
  have wfBetween := wfFirst.run between
  have second := wfBetween.leads_after .removeUnits nofun t
  have proper : IsProper _ :=
    ⟨second.nil_notMem wfBetween nonempty, second.unit_notMem_of_removeUnits⟩
  exact proper.run (second.wellFormed wfBetween) later

/-- A binarization that succeeds makes all later grammars binary. -/
theorem WellFormed.isBinary_run (wf : G.WellFormed) (succeeds : G.SucceedsIn .binarize steps) :
    (G.run steps).IsBinary := by
  obtain ⟨before, supply, later, rfl, H, ok⟩ := succeeds
  have wfBefore := wf.run before
  have leads : (G.run before).Leads .binarize H := wfBefore.leads_of_apply ok
  rw [run_append, run_cons, after_of_ok ok]
  exact leads.isBinary_of_binarize.run (leads.wellFormed wfBefore) later

theorem WellFormed.isNormal_run_of_succeedsIn (wf : G.WellFormed)
    (succeeds : G.SucceedsIn .binarize steps)
    (order : [Stage.eliminateEmpty, .removeUnits].Sublist (steps.map (·.1))) :
    (G.run steps).IsNormal :=
  (wf.run steps).isNormal_iff.mpr ⟨wf.isProper_run order, wf.isBinary_run succeeds⟩

/-- All stages in their order lead to normal form. -/
theorem WellFormed.isNormal_of_toNormalForm (wf : G.WellFormed)
    (ok : G.toNormalForm.outcome = .ok H) : H.IsNormal := by
  obtain ⟨steps, rfl, stages, succeed⟩ := exists_run_of_applyAll ok
  have order : [Stage.eliminateEmpty, .removeUnits].Sublist (steps.map (·.1)) := by
    rw [stages]
    decide
  exact wf.isNormal_run_of_succeedsIn (succeed .binarize (by decide)) order

/-- **Runs that end in normal form.** It takes a binarization that succeeds, at any time, and an
elimination of empty bodies some time before a removal of unit productions. From then on the
grammar stays in normal form and can be read as such. All stages in their order are a case of
this. -/
theorem WellFormed.isNormal_run (wf : G.WellFormed) :
    (∀ steps : List (Stage × NameSupply), G.SucceedsIn .binarize steps →
      [Stage.eliminateEmpty, .removeUnits].Sublist (steps.map (·.1)) →
      ∀ more, (G.run (steps ++ more)).IsNormal ∧
        ∃ N, NormalGrammar.ofGrammar (G.run (steps ++ more)) = .ok N) ∧
    ∀ H, G.toNormalForm.outcome = .ok H → H.IsNormal ∧ ∃ N, NormalGrammar.ofGrammar H = .ok N := by
  refine ⟨fun steps succeeds order more => ?_, fun H ok => ?_⟩
  · have longer := order.trans ((List.sublist_append_left steps more).map (·.1))
    have normal := wf.isNormal_run_of_succeedsIn succeeds.append longer
    exact ⟨normal, exists_ofGrammar_iff.mpr normal⟩
  · have normal := wf.isNormal_of_toNormalForm ok
    exact ⟨normal, exists_ofGrammar_iff.mpr normal⟩

/-- For the grammar of brackets, binarization may as well come first. -/
theorem brackets_isNormal_run :
    brackets.WellFormed ∧
      (brackets.run
        [(.binarize, .full), (.eliminateEmpty, .full), (.removeUnits, .full)]).IsNormal ∧
      ∃ H, brackets.toNormalForm.outcome = .ok H ∧ H.IsNormal := by
  have normal := brackets_wellFormed.isNormal_run
  refine ⟨brackets_wellFormed, ?_, ?_⟩
  · have succeeds : brackets.SucceedsIn .binarize
        [(.binarize, .full), (.eliminateEmpty, .full), (.removeUnits, .full)] :=
      ⟨[], .full, _, rfl, brackets.binaryForm 1, by decide +kernel⟩
    exact (normal.1 _ succeeds (by decide) []).1
  · have ok : brackets.toNormalForm.outcome = .ok (brackets.run (Stage.all.map (·, .full))) := by
      decide +kernel
    exact ⟨_, ok, (normal.2 _ ok).1⟩

end Grammar

end ContextFree

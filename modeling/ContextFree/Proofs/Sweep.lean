import ContextFree.Proofs.Rest
import ContextFree.Proofs.WellFormed
import ContextFree.Sweep

/-!
# What sweeps find

Sweeps start from nothing and go on until a sweep finds nothing more (`Grammar.swept`). Everything
about what they find follows from two facts:

* `Grammar.swept_induction` — whatever holds of nothing and is kept when the left-hand side of a
  ripe body joins, holds of what is found; from this comes soundness.
* `Grammar.WellFormed.mem_swept_of_ripe` — a non-terminal with a body that is ripe in the end is
  found; from this comes completeness.

The second rests on the number of sweeps. Each sweep but the last finds a non-terminal that was
not found before, so there are never more of them than the grammar allows
(`Grammar.WellFormed.outcome_saturate_sweep`).
-/

namespace ContextFree

namespace Grammar

variable {G : Grammar} {ripe : List Name → Body → Bool}

/-! ### One rule and one sweep -/

/-- What one rule adds: nothing, or its left-hand side on account of a ripe body. -/
theorem sweepRule_cases (ripe : List Name → Body → Bool) (found : List Name) (rule : Rule Body) :
    sweepRule ripe found rule = found ∨
      rule.lhs ∉ found ∧ (∃ body ∈ rule.bodies, ripe found body) ∧
        sweepRule ripe found rule = found ++ [rule.lhs] := by
  unfold sweepRule
  split
  · exact .inl rfl
  · next new =>
    split
    · next ripens =>
      have ripened := List.any_eq_true.mp ripens
      exact .inr ⟨new, ripened, rfl⟩
    · exact .inl rfl

theorem prefix_sweepRule (found : List Name) (rule : Rule Body) :
    found <+: sweepRule ripe found rule := by
  rcases sweepRule_cases ripe found rule with eq | ⟨_, _, eq⟩
  · exact ⟨[], by rw [eq, List.append_nil]⟩
  · rw [eq]
    exact List.prefix_append ..

theorem prefix_foldl_sweepRule (rules : List (Rule Body)) (found : List Name) :
    found <+: rules.foldl (sweepRule ripe) found := by
  induction rules generalizing found with
  | nil => exact List.prefix_rfl
  | cons rule rules ih => exact (prefix_sweepRule found rule).trans (ih _)

/-- A property of what is found is kept by a sweep if it is kept whenever the left-hand side of a
ripe body joins. -/
theorem sweep_induction {P : List Name → Prop}
    (step : ∀ found, P found → ∀ rule ∈ G.rules, rule.lhs ∉ found →
      ∀ body ∈ rule.bodies, ripe found body → P (found ++ [rule.lhs]))
    {found : List Name} (h : P found) : P (G.sweep ripe found) := by
  unfold sweep
  -- the induction is on the rules that are still to come
  have keeps : ∀ rules : List (Rule Body), (∀ rule ∈ rules, rule ∈ G.rules) →
      ∀ found, P found → P (rules.foldl (sweepRule ripe) found) := by
    intro rules
    induction rules with
    | nil => exact fun _ _ h => h
    | cons rule rules ih =>
      intro sub found h
      refine ih (fun other mem => sub other (List.mem_cons_of_mem _ mem)) _ ?_
      rcases sweepRule_cases ripe found rule with eq | ⟨new, ⟨body, mem, ripens⟩, eq⟩
      · rw [eq]
        exact h
      · rw [eq]
        exact step found h rule (sub rule List.mem_cons_self) new body mem ripens
  exact keeps G.rules (fun _ mem => mem) found h

/-- A rule that a sweep goes over without finding anything has no ripe body, unless its left-hand
side is found already. -/
theorem lhs_mem_of_foldl_eq {rules : List (Rule Body)} {found : List Name}
    (rest : rules.foldl (sweepRule ripe) found = found) {rule : Rule Body} (mem : rule ∈ rules)
    {body : Body} (hbody : body ∈ rule.bodies) (ripens : ripe found body) : rule.lhs ∈ found := by
  induction rules with
  | nil => cases mem
  | cons first rules ih =>
    rw [List.foldl_cons] at rest
    -- the first rule adds nothing, as the whole sweep adds nothing
    have quiet : sweepRule ripe found first = found := by
      have later : sweepRule ripe found first <+: found := by
        conv => rhs; rw [← rest]
        exact prefix_foldl_sweepRule rules _
      exact ((prefix_sweepRule found first).eq_of_length_le later.length_le).symm
    rw [quiet] at rest
    rcases List.mem_cons.mp mem with rfl | mem
    · -- if its left-hand side were new, the rule would have added it
      by_contra new
      have ripening : rule.bodies.any (ripe found) := List.any_eq_true.mpr ⟨body, hbody, ripens⟩
      rw [sweepRule, if_neg new, if_pos ripening] at quiet
      simp at quiet
    · exact ih rest mem

/-! ### All sweeps -/

/-- What sweeps find in the end. -/
def swept (G : Grammar) (ripe : List Name → Body → Bool) : List Name :=
  (settle (G.sweep ripe) G.nonterminals.length []).2

/-- **What holds of everything that is found**: it holds of nothing, and is kept when the
left-hand side of a ripe body joins. -/
theorem swept_induction {P : List Name → Prop} (nil : P [])
    (step : ∀ found, P found → ∀ rule ∈ G.rules, rule.lhs ∉ found →
      ∀ body ∈ rule.bodies, ripe found body → P (found ++ [rule.lhs])) : P (G.swept ripe) :=
  settle_induction (P := P) (fun _ h => sweep_induction step h) _ nil

/-- No non-terminal is found twice, since only those join that have not been found. -/
theorem nodup_swept : (G.swept ripe).Nodup := by
  refine swept_induction List.nodup_nil ?_
  intro found nodup rule _ new _ _ _
  exact List.nodup_append_comm.mp (List.nodup_cons.mpr ⟨new, nodup⟩)

theorem WellFormed.inside_sweep (wf : G.WellFormed) {found : List Name}
    (h : Inside G.nonterminals found) : Inside G.nonterminals (G.sweep ripe found) := by
  refine sweep_induction (P := Inside G.nonterminals) ?_ h
  intro found inside rule mem new _ _ _
  refine inside.concat ?_ new
  rw [← wf.leftSides_eq]
  exact List.mem_map_of_mem mem

/-- In the end a sweep finds nothing more. -/
theorem WellFormed.sweep_swept (wf : G.WellFormed) :
    G.sweep ripe (G.swept ripe) = G.swept ripe := by
  have grows : ∀ found, Inside G.nonterminals found → found <+: G.sweep ripe found :=
    fun found _ => prefix_foldl_sweepRule G.rules found
  have keeps : ∀ found, Inside G.nonterminals found →
      Inside G.nonterminals (G.sweep ripe found) := fun _ h => wf.inside_sweep h
  exact rest_of_grows grows keeps (inside_nil _) (Nat.le_add_right _ _)

/-- **Sweeps come to rest in time**: a grammar that is well formed has no more sweeps that find
something than non-terminals. -/
theorem WellFormed.outcome_saturate_sweep (wf : G.WellFormed) (closure : Closure) :
    (saturate closure G.nonterminals.length (G.sweep ripe) []).outcome = .ok (G.swept ripe) := by
  rw [saturate_of_rest wf.sweep_swept]
  rfl

/-- **A non-terminal with a ripe body is found.** -/
theorem WellFormed.mem_swept_of_ripe (wf : G.WellFormed) {A : Name} {body : Body}
    (mem : body ∈ G.bodies A) (ripens : ripe (G.swept ripe) body) : A ∈ G.swept ripe := by
  obtain ⟨rule, hrule, rfl, hbody⟩ := exists_rule_of_mem_bodies mem
  exact lhs_mem_of_foldl_eq wf.sweep_swept hrule hbody ripens

end Grammar

end ContextFree

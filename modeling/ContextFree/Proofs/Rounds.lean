import ContextFree.Proofs.Run

/-!
# How many rounds it takes

A round depends on nothing but what it starts from. So the rounds that change something are the
first ones, and after the first quiet round all rounds are quiet (`RestsAfter`). Saturation goes on
for as many rounds as its bound allows, and one more that must be quiet. Where it comes to rest,
its report tells how many rounds have changed something (`restsWithin_of_rest`).

The bound is the number of non-terminals for all three closures of a grammar, and for two different
reasons. A sweep that changes something finds a non-terminal. A round over the chains may find a
great many members, but each round goes one unit production further than the one before, and no
way is longer than there are non-terminals. Hence closures never fail, in no grammar that a run of
stages leads to, and neither do the stages that rest on them. What is left to fail on the way to the
normal form is the supply of names (`Grammar.WellFormed.closuresRest_run`).
-/

namespace ContextFree

/-! ### Rounds and rest -/

section Rest

variable {α : Type} [DecidableEq α] {round : α → α} {a : α}

/-- The first `n` rounds change something, and all rounds after them are quiet. -/
structure RestsAfter {α : Type} (round : α → α) (a : α) (n : Nat) : Prop where
  changes : ∀ i < n, Nat.repeat round (i + 1) a ≠ Nat.repeat round i a
  quiet : ∀ i, n ≤ i → Nat.repeat round (i + 1) a = Nat.repeat round i a

omit [DecidableEq α] in
theorem restsAfter_zero (fixed : round a = a) : RestsAfter round a 0 where
  changes _ hi := absurd hi (Nat.not_lt_zero _)
  quiet i _ := by rw [repeat_of_fixed fixed, repeat_of_fixed fixed]

omit [DecidableEq α] in
/-- One more round in front, which changes something. -/
theorem RestsAfter.succ {n : Nat} (later : RestsAfter round (round a) n) (changes : round a ≠ a) :
    RestsAfter round a (n + 1) where
  changes i hi := by
    cases i with
    | zero => exact changes
    | succ i =>
      -- round `i + 1` from `a` on is round `i` from `round a` on
      rw [repeat_succ_apply round (i + 1), repeat_succ_apply round i a]
      exact later.changes i (Nat.lt_of_succ_lt_succ hi)
  quiet i hi := by
    cases i with
    | zero => exact absurd hi (Nat.not_succ_le_zero n)
    | succ i =>
      rw [repeat_succ_apply round (i + 1), repeat_succ_apply round i a]
      exact later.quiet i (Nat.le_of_succ_le_succ hi)

/-- **Settling counts the rounds that change something**, if what it comes to is at rest. -/
theorem restsAfter_settle {bound : Nat}
    (rest : round (settle round bound a).2 = (settle round bound a).2) :
    RestsAfter round a (settle round bound a).1 := by
  induction bound generalizing a with
  | zero => exact restsAfter_zero rest
  | succ bound ih =>
    by_cases fixed : round a = a
    · rw [settle_of_fixed fixed]
      exact restsAfter_zero fixed
    · -- the round counts, and the rest is what comes of settling after it
      rw [settle_succ_of_ne fixed] at rest ⊢
      exact (ih rest).succ fixed

/-- Settling comes to what the rounds that change something lead to. -/
theorem settle_snd_eq_repeat_fst (round : α → α) (bound : Nat) (a : α) :
    (settle round bound a).2 = Nat.repeat round (settle round bound a).1 a := by
  induction bound generalizing a with
  | zero => rfl
  | succ bound ih =>
    by_cases fixed : round a = a
    · rw [settle_of_fixed fixed]
      rfl
    · rw [settle_succ_of_ne fixed, repeat_succ_apply]
      exact ih (round a)

/-- A saturation that ends well: at most as many rounds as the bound says change something, so that
a quiet one comes right after them, and the report tells how many there were and what they led
to. -/
def RestsWithin {α : Type} (closure : Closure) (bound : Nat) (round : α → α) (a : α)
    (report : Report α) : Prop :=
  ∃ n ≤ bound, RestsAfter round a n ∧
    report = ⟨[.stable closure n], .ok (Nat.repeat round n a)⟩

theorem restsWithin_of_rest (closure : Closure) {bound : Nat}
    (rest : round (settle round bound a).2 = (settle round bound a).2) :
    RestsWithin closure bound round a (saturate closure bound round a) := by
  refine ⟨_, settle_fst_le round bound a, restsAfter_settle rest, ?_⟩
  rw [saturate_of_rest rest, ← settle_snd_eq_repeat_fst]

end Rest

namespace Grammar

variable {G : Grammar} {supply : NameSupply} {failure : Failure}

/-! ### What can fail -/

/-- Stages in a row fail where one of them does, and all before it have succeeded. -/
theorem WellFormed.cases_of_applyAll_eq_error (wf : G.WellFormed) {stages : List Stage}
    (error : (applyAll stages supply G).outcome = .error failure) :
    (∃ m, failure = .nameTaken (.numbered m)) ∨ failure = .namesExhausted := by
  induction stages generalizing G supply with
  | nil => cases error
  | cons first stages ih =>
    rw [applyAll_cons, Report.outcome_bind] at error
    cases outcome : (first.apply supply G).2.outcome with
    | error own =>
      rw [outcome] at error
      cases error
      exact (wf.cases_of_apply_eq_error outcome).imp_left fun ⟨m, _, taken⟩ => ⟨m, taken⟩
    | ok H =>
      -- the others are applied to what the first one leads to, which is well formed
      rw [outcome] at error
      exact ih ((wf.leads_of_apply outcome).wellFormed wf) error

/-! ### Closures of a grammar -/

/-- The closures of the grammar come to rest in time, and nothing fails on their account. -/
structure ClosuresRest (G : Grammar) : Prop where
  nullable : RestsWithin .nullable G.nonterminals.length (G.sweep Body.vanishes) [] G.nullable
  unit : RestsWithin .unit G.nonterminals.length Chain.relaxAll G.unitSteps G.unitChains
  productive :
    RestsWithin .productive G.nonterminals.length (G.sweep Body.isProductive) [] G.productive
  /-- The stages that rest on closures succeed. -/
  stages : (∃ H, G.eliminateEmpty.outcome = .ok H) ∧ (∃ H, G.removeUnits.outcome = .ok H) ∧
    ∃ H, G.removeNonproductive.outcome = .ok H
  /-- On the way to the normal form, only the supply of names can fail. -/
  toNormalForm : ∀ failure, G.toNormalForm.outcome = .error failure →
    (∃ m, failure = .nameTaken (.numbered m)) ∨ failure = .namesExhausted

theorem WellFormed.closuresRest (wf : G.WellFormed) : G.ClosuresRest where
  nullable := restsWithin_of_rest .nullable wf.sweep_swept
  unit := restsWithin_of_rest .unit wf.relaxAll_chains
  productive := restsWithin_of_rest .productive wf.sweep_swept
  stages :=
    ⟨⟨_, wf.outcome_eliminateEmpty⟩, ⟨_, wf.outcome_removeUnits⟩, _, wf.outcome_removeNonproductive⟩
  toNormalForm _ error := wf.cases_of_applyAll_eq_error error

/-- **Closures come to rest in time**, in every grammar that a run of stages leads to. -/
theorem WellFormed.closuresRest_run (wf : G.WellFormed) (steps : List (Stage × NameSupply)) :
    (G.run steps).ClosuresRest :=
  (wf.run steps).closuresRest

/-- In `loops` it takes two rounds to find that `A` and then `S` vanish, as many as there are
non-terminals. The chains are complete from the beginning. -/
theorem loops_closuresRest :
    loops.WellFormed ∧ loops.ClosuresRest ∧
      loops.nullable.events = [.stable .nullable 2] ∧ loops.unitChains.events = [.stable .unit 0] ∧
      (loops.run [(.eliminateEmpty, .full), (.removeUnits, .full)]).ClosuresRest := by
  have rest := loops_wellFormed.closuresRest_run
  exact ⟨loops_wellFormed, rest [], by decide +kernel, by decide +kernel,
    rest [(.eliminateEmpty, .full), (.removeUnits, .full)]⟩

end Grammar

end ContextFree

import ContextFree.Report

/-!
# Rounds until rest

Several sets of a grammar are computed by going over its rules again and again until a round adds
nothing more. `settle` repeats a round at most a given number of times and stops early when a
round changes nothing; stopping early is a matter of speed alone, since a round that changes
nothing would change nothing when repeated (`settle_snd`).

`saturate` is the same with a report: the number of rounds that changed something if the result
is at rest, and a failure if it is still changing when the bound is used up.
-/

namespace ContextFree

variable {α : Type} [DecidableEq α]

/-- Repeats a round until it changes nothing, but at most the given number of times; the number
of rounds that did change something, and what they led to. -/
def settle (round : α → α) : Nat → α → Nat × α
  | 0, a => (0, a)
  | n + 1, a =>
    if round a = a then (0, a)
    else
      let (changing, rest) := settle round n (round a)
      (changing + 1, rest)

/-- Repeats a round until rest and tells how long it took; fails if the bound does not suffice. -/
def saturate (closure : Closure) (bound : Nat) (round : α → α) (a : α) : Report α :=
  let (changing, rest) := settle round bound a
  if round rest = rest then ⟨[.stable closure changing], .ok rest⟩
  else .fail (.unstable closure bound)

theorem settle_of_fixed {round : α → α} {a : α} (h : round a = a) (n : Nat) :
    settle round n a = (0, a) := by
  cases n with
  | zero => rfl
  | succ n => simp [settle, h]

theorem settle_succ_of_ne {round : α → α} {a : α} (h : round a ≠ a) (n : Nat) :
    settle round (n + 1) a =
      ((settle round n (round a)).1 + 1, (settle round n (round a)).2) := by
  simp [settle, h]

/-- No more rounds change something than are allowed. -/
theorem settle_fst_le (round : α → α) (n : Nat) (a : α) : (settle round n a).1 ≤ n := by
  induction n generalizing a with
  | zero => exact Nat.le_refl 0
  | succ n ih =>
    by_cases h : round a = a
    · simp [settle_of_fixed h]
    · rw [settle_succ_of_ne h]
      exact Nat.succ_le_succ (ih _)

omit [DecidableEq α] in
theorem repeat_succ_apply (round : α → α) (n : Nat) (a : α) :
    Nat.repeat round (n + 1) a = Nat.repeat round n (round a) := by
  induction n with
  | zero => rfl
  | succ n ih => rw [Nat.repeat, ih, Nat.repeat]

omit [DecidableEq α] in
theorem repeat_of_fixed {round : α → α} {a : α} (h : round a = a) (n : Nat) :
    Nat.repeat round n a = a := by
  induction n with
  | zero => rfl
  | succ n ih => rw [Nat.repeat, ih, h]

/-- Stopping early does not show: the result is that of the full number of rounds. -/
theorem settle_snd (round : α → α) (n : Nat) (a : α) :
    (settle round n a).2 = Nat.repeat round n a := by
  induction n generalizing a with
  | zero => rfl
  | succ n ih =>
    by_cases h : round a = a
    · rw [settle_of_fixed h, repeat_of_fixed h]
    · rw [settle_succ_of_ne h, repeat_succ_apply, ih]

/-- Where the bound suffices, saturation ends well. -/
theorem saturate_of_rest {closure : Closure} {bound : Nat} {round : α → α} {a : α}
    (rest : round (settle round bound a).2 = (settle round bound a).2) :
    saturate closure bound round a =
      ⟨[.stable closure (settle round bound a).1], .ok (settle round bound a).2⟩ := by
  simp [saturate, rest]

/-- A property that every round keeps is kept until rest. -/
theorem settle_induction {round : α → α} {P : α → Prop} (step : ∀ b, P b → P (round b))
    (n : Nat) {a : α} (h : P a) : P (settle round n a).2 := by
  induction n generalizing a with
  | zero => exact h
  | succ n ih =>
    by_cases fixed : round a = a
    · rw [settle_of_fixed fixed]; exact h
    · rw [settle_succ_of_ne fixed]; exact ih (step a h)

end ContextFree

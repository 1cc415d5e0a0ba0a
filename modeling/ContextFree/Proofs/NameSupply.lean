import ContextFree.NameSupply
import Mathlib.Tactic.ByContra

/-!
# Which names are handed out

A supply hands out its numbers one after the other. For some bodies at once this is said by
`NameSupply.introduce`: one name for each body, none of them declared. Names that have been handed
out before are not looked at, because their numbers are smaller ones.

Numbers that can be used are passed (`NameSupply.introduce_drop`), so that the first number which
cannot be used decides what comes of it (`NameSupply.introduce_of_obstacle`): either its name is
taken, or no number comes after it. If there is no such number among those that are asked for, all
is well (`NameSupply.introduce_of_usable`).

A report tells which names have been handed out (`Report.introduced`).
-/

namespace ContextFree

namespace Report

variable {α β γ : Type}

/-- The names that a computation has handed out, in order. -/
def introduced (report : Report α) : List Name :=
  report.events.filterMap fun
    | .introducing name _ => some name
    | _ => none

/-- What a computation comes to, but for the other events: the names it has handed out, and its
outcome. -/
def upshot (report : Report α) : List Name × Except Failure α := (report.introduced, report.outcome)

theorem events_bind_of_ok {first : Report α} {a : α} (ok : first.outcome = .ok a)
    (next : α → Report β) : (first >>= next).events = first.events ++ (next a).events := by
  change (andThen first next).events = _
  rw [andThen, ok]

/-- After a failure nothing more is told, because the second computation does not start. -/
theorem events_bind_of_error {first : Report α} {failure : Failure}
    (error : first.outcome = .error failure) (next : α → Report β) :
    (first >>= next).events = first.events := by
  change (andThen first next).events = _
  rw [andThen, error]

/-- What is so for all events of two computations is so for those of both in a row. -/
theorem forall_events_bind {P : Event → Prop} {first : Report α} {next : α → Report β}
    (before : ∀ e ∈ first.events, P e) (later : ∀ a, ∀ e ∈ (next a).events, P e) :
    ∀ e ∈ (first >>= next).events, P e := by
  intro e mem
  cases outcome : first.outcome with
  | ok a =>
    rw [events_bind_of_ok outcome, List.mem_append] at mem
    exact mem.elim (before e) (later a e)
  | error failure =>
    rw [events_bind_of_error outcome] at mem
    exact before e mem

theorem introduced_bind_of_ok {first : Report α} {a : α} (ok : first.outcome = .ok a)
    (next : α → Report β) :
    (first >>= next).introduced = first.introduced ++ (next a).introduced := by
  rw [introduced, events_bind_of_ok ok, List.filterMap_append]
  rfl

/-- A second computation that hands out no names does not show in what both hand out. -/
theorem introduced_bind_of_quiet {next : α → Report β} (later : ∀ a, (next a).introduced = [])
    (first : Report α) : (first >>= next).introduced = first.introduced := by
  cases outcome : first.outcome with
  | ok a => rw [introduced_bind_of_ok outcome, later a, List.append_nil]
  | error failure =>
    rw [introduced, events_bind_of_error outcome]
    rfl

/-- Two computations in a row hand out no names if neither of them does. -/
theorem introduced_bind_eq_nil {first : Report α} {next : α → Report β}
    (quiet : first.introduced = []) (later : ∀ a, (next a).introduced = []) :
    (first >>= next).introduced = [] :=
  (introduced_bind_of_quiet later first).trans quiet

/-- After a computation that succeeds and hands out no names, all depends on the next one. -/
theorem upshot_bind_of_ok {first : Report α} {a : α} (ok : first.outcome = .ok a)
    (quiet : first.introduced = []) (next : α → Report β) :
    (first >>= next).upshot = (next a).upshot := by
  rw [upshot, introduced_bind_of_ok ok, quiet, List.nil_append, outcome_bind, ok]
  rfl

/-- An event more makes no difference to the outcome. -/
theorem outcome_note_bind (event : Event) (others : Report α) :
    (do note event; others).outcome = others.outcome :=
  outcome_bind _ _

theorem bind_pure_eq (report : Report α) : report >>= pure = report := by
  obtain ⟨events, outcome⟩ := report
  cases outcome with
  | ok a => exact congrArg (Report.mk · (.ok a)) (List.append_nil events)
  | error failure => rfl

theorem bind_assoc (first : Report α) (second : α → Report β) (third : β → Report γ) :
    first >>= second >>= third = first >>= fun a => second a >>= third := by
  obtain ⟨events, outcome⟩ := first
  cases outcome with
  | error failure => rfl
  | ok a =>
    show andThen (andThen _ _) _ = andThen _ _
    simp only [andThen]
    show _ = (⟨events ++ (andThen _ _).events, (andThen _ _).outcome⟩ : Report γ)
    unfold andThen
    cases (second a).outcome with
    | error failure => rfl
    | ok b => simp only [List.append_assoc]

end Report

namespace Grammar

/-- The `m`-th numbered name is declared, in one alphabet or the other. -/
def IsTaken (G : Grammar) (m : Nat) : Prop :=
  .numbered m ∈ G.nonterminals ∨ .numbered m ∈ G.terminals

/-- The `m`-th numbered name can be handed out. -/
structure IsUsable (G : Grammar) (m : Nat) : Prop where
  /-- The number after it can be remembered. -/
  fits : m + 1 < NameSupply.limit
  /-- Its name is new. -/
  free : ¬ G.IsTaken m

theorem isUsable_of_lt {G : Grammar} {k i m : Nat} (usable : ∀ j < i, G.IsUsable (k + j))
    (low : k ≤ m) (high : m < k + i) : G.IsUsable m := by
  have here := usable (m - k) (by omega)
  rwa [Nat.add_sub_cancel' low] at here

/-- Either all numbers of a range can be used, or there is a first one that cannot. -/
theorem isUsable_or_exists_obstacle (G : Grammar) (k n : Nat) :
    (∀ i < n, G.IsUsable (k + i)) ∨
      ∃ i < n, ¬ G.IsUsable (k + i) ∧ ∀ j < i, G.IsUsable (k + j) := by
  induction n with
  | zero => exact .inl nofun
  | succ n ih =>
    rcases ih with all | ⟨i, hi, obstacle⟩
    · by_cases last : G.IsUsable (k + n)
      · refine .inl fun i hi => ?_
        rcases Nat.lt_succ_iff_lt_or_eq.mp hi with hi | rfl
        · exact all i hi
        · exact last
      · exact .inr ⟨n, Nat.lt_succ_self n, last, all⟩
    · -- an obstacle among the earlier numbers is the first one still
      exact .inr ⟨i, Nat.lt_succ_of_lt hi, obstacle⟩

end Grammar

namespace NameSupply

variable {G : Grammar} {supply : NameSupply} {k n i : Nat} {body : Body} {bodies : List Body}

/-- Hands out one name for each body, in order, unless a name is declared or there are none left. -/
def introduce (G : Grammar) (supply : NameSupply) : List Body → NameSupply × Report Unit
  | [] => (supply, pure ())
  | body :: bodies =>
    match supply.mint G.nonterminals G.terminals with
    | (supply, .error failure) => (supply, .fail failure)
    | (supply, .ok name) =>
      let (supply, others) := introduce G supply bodies
      (supply, do .note (.introducing name body); others)

/-- What a computation with a supply comes to: the supply that it leaves, and its outcome. -/
def answer {α : Type} (result : NameSupply × Report α) : NameSupply × Except Failure α :=
  (result.1, result.2.outcome)

/-! ### A single name -/

theorem mint_of_isUsable (usable : G.IsUsable k) :
    mint G.nonterminals G.terminals ⟨k⟩ = (⟨k + 1⟩, .ok (.numbered k)) := by
  have free : ¬ (.numbered k ∈ G.nonterminals ∨ .numbered k ∈ G.terminals) := usable.free
  simp only [mint, if_neg (Nat.not_le_of_lt usable.fits), if_neg free]

theorem mint_of_le (last : limit ≤ k + 1) :
    mint G.nonterminals G.terminals ⟨k⟩ = (⟨k⟩, .error .namesExhausted) := by
  simp only [mint, if_pos last]

/-- The supply has passed a name that is taken. -/
theorem mint_of_isTaken (fits : k + 1 < limit) (taken : G.IsTaken k) :
    mint G.nonterminals G.terminals ⟨k⟩ = (⟨k + 1⟩, .error (.nameTaken (.numbered k))) := by
  have taken : .numbered k ∈ G.nonterminals ∨ .numbered k ∈ G.terminals := taken
  simp only [mint, if_neg (Nat.not_le_of_lt fits), if_pos taken]

variable {rest : NameSupply} {name : Name} {failure : Failure}

/-- A name is refused, and the supply has not moved back, or it is the one of the next number. -/
theorem mint_cases (nonterminals terminals : List Name) (supply : NameSupply) :
    (∃ rest failure, supply.mint nonterminals terminals = (rest, .error failure) ∧
        supply.next ≤ rest.next) ∨
      supply.mint nonterminals terminals = (⟨supply.next + 1⟩, .ok (.numbered supply.next)) := by
  unfold mint
  dsimp only
  split
  · exact .inl ⟨_, _, rfl, Nat.le_refl _⟩
  · split
    · exact .inl ⟨_, _, rfl, Nat.le_succ _⟩
    · exact .inr rfl

theorem introduce_cons_of_error
    (refused : supply.mint G.nonterminals G.terminals = (rest, .error failure)) (body : Body)
    (bodies : List Body) : introduce G supply (body :: bodies) = (rest, .fail failure) := by
  rw [introduce, refused]

theorem introduce_cons_of_ok
    (minted : supply.mint G.nonterminals G.terminals = (rest, .ok name)) (body : Body)
    (bodies : List Body) :
    introduce G supply (body :: bodies) = ((introduce G rest bodies).1, do
      Report.note (.introducing name body)
      (introduce G rest bodies).2) := by
  rw [introduce, minted]

/-! ### Some names, and then others -/

/-- If the first names cannot be had, the others are not asked for. -/
theorem introduce_append_of_error
    (error : (introduce G supply bodies).2.outcome = .error failure) (more : List Body) :
    introduce G supply (bodies ++ more) = introduce G supply bodies := by
  induction bodies generalizing supply with
  | nil => cases error
  | cons body bodies ih =>
    rw [List.cons_append]
    rcases mint_cases G.nonterminals G.terminals supply with ⟨_, _, refused, _⟩ | minted
    · rw [introduce_cons_of_error refused, introduce_cons_of_error refused]
    · rw [introduce_cons_of_ok minted, Report.outcome_note_bind] at error
      rw [introduce_cons_of_ok minted, introduce_cons_of_ok minted, ih error]

/-- If the first names are to be had, the others are asked of the supply that is left. -/
theorem introduce_append_of_ok (ok : (introduce G supply bodies).2.outcome = .ok ())
    (more : List Body) :
    introduce G supply (bodies ++ more) =
      ((introduce G (introduce G supply bodies).1 more).1, do
        (introduce G supply bodies).2
        (introduce G (introduce G supply bodies).1 more).2) := by
  induction bodies generalizing supply with
  | nil => rfl
  | cons body bodies ih =>
    rw [List.cons_append]
    rcases mint_cases G.nonterminals G.terminals supply with ⟨_, _, refused, _⟩ | minted
    · rw [introduce_cons_of_error refused] at ok
      cases ok
    · rw [introduce_cons_of_ok minted, Report.outcome_note_bind] at ok
      rw [introduce_cons_of_ok minted, introduce_cons_of_ok minted, ih ok]
      simp only [Report.bind_assoc]

/-! ### One name after the other -/

theorem introduce_cons (usable : G.IsUsable k) :
    answer (introduce G ⟨k⟩ (body :: bodies)) = answer (introduce G ⟨k + 1⟩ bodies) := by
  rw [introduce_cons_of_ok (mint_of_isUsable usable), answer, Report.outcome_note_bind]
  rfl

/-- **Numbers that can be used are passed.** -/
theorem introduce_drop (hn : n ≤ bodies.length) (usable : ∀ i < n, G.IsUsable (k + i)) :
    answer (introduce G ⟨k⟩ bodies) = answer (introduce G ⟨k + n⟩ (bodies.drop n)) := by
  induction n generalizing k bodies with
  | zero => rfl
  | succ n ih =>
    cases bodies with
    | nil => cases hn
    | cons body bodies =>
      have later : ∀ i < n, G.IsUsable (k + 1 + i) := by
        intro i hi
        rw [show k + 1 + i = k + (i + 1) by omega]
        exact usable (i + 1) (Nat.succ_lt_succ hi)
      -- the first number goes to the first body, and the others are those from `k + 1` on
      calc answer (introduce G ⟨k⟩ (body :: bodies))
          = answer (introduce G ⟨k + 1⟩ bodies) := introduce_cons (usable 0 (Nat.succ_pos n))
        _ = answer (introduce G ⟨k + 1 + n⟩ (bodies.drop n)) :=
            ih (Nat.le_of_succ_le_succ hn) later
        _ = answer (introduce G ⟨k + (n + 1)⟩ ((body :: bodies).drop (n + 1))) := by
            rw [List.drop_succ_cons, show k + 1 + n = k + (n + 1) by omega]

/-- If all numbers can be used, each body gets a name. -/
theorem introduce_of_usable (usable : ∀ i < bodies.length, G.IsUsable (k + i)) :
    answer (introduce G ⟨k⟩ bodies) = (⟨k + bodies.length⟩, .ok ()) := by
  rw [introduce_drop (Nat.le_refl _) usable, List.drop_length]
  rfl

/-- **The first number that cannot be used decides.** If there is no number after it, the supply
stops there; otherwise its name is taken, and the supply has passed it. -/
theorem introduce_of_obstacle (hi : i < bodies.length) (stuck : ¬ G.IsUsable (k + i))
    (before : ∀ j < i, G.IsUsable (k + j)) :
    (limit ≤ k + i + 1 ∧
        answer (introduce G ⟨k⟩ bodies) = (⟨k + i⟩, .error .namesExhausted)) ∨
      (k + i + 1 < limit ∧ G.IsTaken (k + i) ∧
        answer (introduce G ⟨k⟩ bodies) =
          (⟨k + i + 1⟩, .error (.nameTaken (.numbered (k + i))))) := by
  rw [introduce_drop (Nat.le_of_lt hi) before, List.drop_eq_getElem_cons hi]
  -- whether the next number can be remembered is asked before the name is looked at
  by_cases fits : k + i + 1 < limit
  · have taken : G.IsTaken (k + i) := by
      by_contra free
      exact stuck ⟨fits, free⟩
    refine .inr ⟨fits, taken, ?_⟩
    rw [introduce_cons_of_error (mint_of_isTaken fits taken)]
    rfl
  · have last := Nat.le_of_not_lt fits
    refine .inl ⟨last, ?_⟩
    rw [introduce_cons_of_error (mint_of_le last)]
    rfl

/-- What comes of handing out names depends on how many they are and on which names are taken. -/
theorem answer_introduce_congr {H : Grammar} {others : List Body}
    (taken : ∀ m, G.IsTaken m ↔ H.IsTaken m) (length : bodies.length = others.length) :
    answer (introduce G ⟨k⟩ bodies) = answer (introduce H ⟨k⟩ others) := by
  have usable : ∀ m, G.IsUsable m → H.IsUsable m := fun m usable =>
    ⟨usable.fits, mt (taken m).mpr usable.free⟩
  rcases G.isUsable_or_exists_obstacle k bodies.length with all | ⟨i, hi, stuck, before⟩
  · rw [introduce_of_usable all, introduce_of_usable fun i hi => usable _ (all i (length ▸ hi)),
      length]
  · -- the first number that cannot be used in one grammar is the first in the other
    have stuckH : ¬ H.IsUsable (k + i) := fun usableH =>
      stuck ⟨usableH.fits, mt (taken _).mp usableH.free⟩
    have beforeH : ∀ j < i, H.IsUsable (k + j) := fun j hj => usable _ (before j hj)
    rcases introduce_of_obstacle hi stuck before with ⟨last, eq⟩ | ⟨fits, _, eq⟩
    · rcases introduce_of_obstacle (length ▸ hi) stuckH beforeH with ⟨_, eqH⟩ | ⟨fits, _⟩
      · rw [eq, eqH]
      · exact absurd fits (Nat.not_lt_of_le last)
    · rcases introduce_of_obstacle (length ▸ hi) stuckH beforeH with ⟨last, _⟩ | ⟨_, _, eqH⟩
      · exact absurd fits (Nat.not_lt_of_le last)
      · rw [eq, eqH]

/-- Handing out names succeeds only if all numbers can be used. -/
theorem isUsable_of_introduce_eq_ok {supply : NameSupply}
    (ok : (introduce G supply bodies).2.outcome = .ok ()) :
    ∀ i < bodies.length, G.IsUsable (supply.next + i) := by
  have answered : (answer (introduce G ⟨supply.next⟩ bodies)).2 = .ok () := ok
  rcases G.isUsable_or_exists_obstacle supply.next bodies.length with
    usable | ⟨i, hi, stuck, before⟩
  · exact usable
  · rcases introduce_of_obstacle hi stuck before with ⟨_, eq⟩ | ⟨_, _, eq⟩
    · rw [eq] at answered
      cases answered
    · rw [eq] at answered
      cases answered

/-- Handing out names fails for no other reasons. -/
theorem cases_of_introduce_eq_error {supply : NameSupply} {failure : Failure}
    (error : (introduce G supply bodies).2.outcome = .error failure) :
    (∃ m, G.IsTaken m ∧ failure = .nameTaken (.numbered m)) ∨ failure = .namesExhausted := by
  have answered : (answer (introduce G ⟨supply.next⟩ bodies)).2 = .error failure := error
  rcases G.isUsable_or_exists_obstacle supply.next bodies.length with
    usable | ⟨i, hi, stuck, before⟩
  · rw [introduce_of_usable usable] at answered
    cases answered
  · rcases introduce_of_obstacle hi stuck before with ⟨_, eq⟩ | ⟨_, taken, eq⟩
    · rw [eq] at answered
      cases answered
      exact .inr rfl
    · rw [eq] at answered
      cases answered
      exact .inl ⟨_, taken, rfl⟩

end NameSupply

end ContextFree

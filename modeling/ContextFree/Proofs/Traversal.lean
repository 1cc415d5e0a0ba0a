import ContextFree.Binarization
import ContextFree.Proofs.NameSupply
import ContextFree.Proofs.Peeling

/-!
# Going through the bodies

Binarization goes through the bodies of a grammar symbol by symbol. It remembers which terminals it
has met and which names it has handed out, and it can end at any of the names that it asks for. What
comes of it can be said without all this (`Grammar.binarizeWith_eq`): names are asked for once, for
the bodies of all fresh non-terminals together, and if they are to be had, the binary form is the
answer.

* A computation **asks for** names (`Binarizing.Asks`) if all that it does is to ask for names for
  some bodies, one after the other, and to answer. Both the bodies and the answer are those that
  belong to consecutive numbers. This is kept when one computation follows another.
* Peeling asks for the pairs that it replaces (`Binarizing.Asks.peelRules`).
* Isolating depends on what has been met before. The terminals that have been met are in the order
  of first use, each with the number of its place, and a place does not change when others come
  after it (`Binarizing.Isolates`). So it asks for the crowded terminals
  (`Binarizing.asks_isolateRules`).
* A name that is handed out differs from all that were handed out before, since these have smaller
  numbers (`Binarizer.Extends.mem_iff`). So it is enough to compare it with the names that are
  declared, and asking for names one by one comes to what handing them out at once comes to
  (`Binarizer.Extends.performs_introduceAll`).
-/

namespace ContextFree

namespace Binarizing

variable {α β : Type} {terminals : List Name} {k : Nat} {a : α} {b : β} {bodies more : List Body}
  {computation : Binarizing α} {next : α → Binarizing β} {state last : Binarizer}

/-! ### Computations with a binarizer -/

theorem perform_bind (computation : Binarizing α) (next : α → Binarizing β) (state : Binarizer) :
    (computation >>= next).perform state = match computation.perform state with
      | (.ok a, state) => (next a).perform state
      | (.error failure, state) => (.error failure, state) := by
  unfold perform
  rw [ExceptT.run_bind, StateT.run_bind]
  show (match computation.run.run state with | (a, s) => _) = _
  rcases computation.run.run state with ⟨_ | _, _⟩ <;> rfl

theorem perform_introduce (terminals : List Name) (body : Body) (state : Binarizer) :
    (introduce terminals body).perform state =
      match state.supply.mint state.nonterminals terminals with
      | (supply, .error failure) => (.error failure, { state with supply })
      | (supply, .ok name) => (.ok name, {
          supply
          nonterminals := state.nonterminals ++ [name]
          fresh := state.fresh ++ [⟨name, [body]⟩]
          events := state.events ++ [.introducing name body] }) := by
  have current : (get : Binarizing Binarizer).perform state = (.ok state, state) := rfl
  rw [introduce, perform_bind, current]
  simp only
  rcases state.supply.mint state.nonterminals terminals with ⟨supply, failure | name⟩ <;> rfl

/-! ### Asking for names -/

/-- Asks for a name for each body. -/
def introduceAll (terminals : List Name) : List Body → Binarizing Unit
  | [] => pure ()
  | body :: bodies => do
    let _ ← introduce terminals body
    introduceAll terminals bodies

/-- The computation asks for names for the bodies, in this order and with numbers from `k` on. If it
gets them, it answers with `a`. -/
def Asks (terminals : List Name) (k : Nat) (computation : Binarizing α) (bodies : List Body)
    (a : α) : Prop :=
  ∀ state : Binarizer, state.supply.next = k →
    computation.perform state = (do introduceAll terminals bodies; return a).perform state

theorem introduceAll_append (bodies more : List Body) :
    introduceAll terminals (bodies ++ more) = (do
      introduceAll terminals bodies
      introduceAll terminals more) := by
  induction bodies with
  | nil => exact (pure_bind _ _).symm
  | cons body bodies ih => rw [List.cons_append, introduceAll, introduceAll, ih, bind_assoc]

/-- A supply has moved on by one number for each name that was handed out. -/
theorem next_of_perform_introduce {name : Name} {body : Body}
    (ok : (introduce terminals body).perform state = (.ok name, last)) :
    name = .numbered state.supply.next ∧ last.supply.next = state.supply.next + 1 := by
  rw [perform_introduce] at ok
  rcases NameSupply.mint_cases state.nonterminals terminals state.supply with
    ⟨_, _, refused, _⟩ | minted
  · rw [refused] at ok
    cases ok
  · rw [minted] at ok
    cases ok
    exact ⟨rfl, rfl⟩

theorem next_of_perform_introduceAll
    (ok : (introduceAll terminals bodies).perform state = (.ok (), last)) :
    last.supply.next = state.supply.next + bodies.length := by
  induction bodies generalizing state with
  | nil =>
    cases ok
    rfl
  | cons body bodies ih =>
    rw [introduceAll, perform_bind] at ok
    cases first : (introduce terminals body).perform state with
    | mk outcome middle =>
      rw [first] at ok
      cases outcome with
      | error failure => cases ok
      | ok name =>
        rw [ih ok, (next_of_perform_introduce first).2, List.length_cons]
        omega

theorem Asks.pure (a : α) : Asks terminals k (pure a) [] a := fun _ _ => rfl

theorem Asks.bind (first : Asks terminals k computation bodies a)
    (second : Asks terminals (k + bodies.length) (next a) more b) :
    Asks terminals k (computation >>= next) (bodies ++ more) b := by
  intro state hk
  rw [introduceAll_append, bind_assoc, perform_bind, perform_bind, first state hk, perform_bind]
  cases asked : (introduceAll terminals bodies).perform state with
  | mk outcome middle =>
    cases outcome with
    | error failure => rfl
    | ok =>
      -- the names of the first computation are the only ones that the supply has passed
      refine second middle ?_
      rw [next_of_perform_introduceAll asked, hk]

/-- The name that is answered with is that of the next number. -/
theorem Asks.introduce (terminals : List Name) (k : Nat) (body : Body) :
    Asks terminals k (introduce terminals body) [body] (.numbered k) := by
  intro state hk
  rw [introduceAll, introduceAll, perform_bind, perform_bind]
  cases asked : (Binarizing.introduce terminals body).perform state with
  | mk outcome middle =>
    cases outcome with
    | error failure => rfl
    | ok name =>
      rw [(next_of_perform_introduce asked).1, hk]
      rfl

/-- What is done with an answer asks for nothing. -/
theorem Asks.map (first : Asks terminals k computation bodies a) (g : α → β) :
    Asks terminals k (do let x ← computation; return g x) bodies (g a) := by
  have both : Asks terminals k (computation >>= fun x => Pure.pure (g x)) (bodies ++ []) (g a) :=
    first.bind (.pure (g a))
  rwa [List.append_nil] at both

/-! ### Peeling -/

theorem Asks.peelFrom (terminals : List Name) (k : Nat) (first second : Symbol)
    (others : List Symbol) :
    Asks terminals k (peelFrom terminals first second others)
      (Body.peelFrom k first second others).2 (Body.peelFrom k first second others).1 := by
  induction others generalizing k first second with
  | nil => exact .pure _
  | cons third others ih => exact (Asks.introduce terminals k [first, second]).bind (ih _ _ _)

theorem Asks.peelBody (terminals : List Name) (k : Nat) (body : Body) :
    Asks terminals k (peelBody terminals body) (Body.peel k body).2 (Body.peel k body).1 := by
  match body with
  | [] => exact .pure _
  | [_] => exact .pure _
  | first :: second :: others => exact .peelFrom terminals k first second others

theorem Asks.peelAll (terminals : List Name) (k : Nat) (bodies : List Body) :
    Asks terminals k (bodies.mapM (Binarizing.peelBody terminals)) (Body.peelAll k bodies).2
      (Body.peelAll k bodies).1 := by
  induction bodies generalizing k with
  | nil => exact .pure _
  | cons body bodies ih =>
    rw [List.mapM_cons]
    exact (Asks.peelBody terminals k body).bind ((ih _).map _)

/-- The numbers of a rule are those after the ones that the rules before it have taken. -/
theorem Asks.peelRules (terminals : List Name) (k : Nat) (rules : List (Rule Body)) :
    Asks terminals k (rules.mapM (peelRule terminals)) (Grammar.peelRules k rules).2
      (Grammar.peelRules k rules).1 := by
  induction rules generalizing k with
  | nil => exact .pure _
  | cons rule rules ih =>
    rw [List.mapM_cons]
    have first := (Asks.peelAll terminals k rule.bodies).map (Rule.mk rule.lhs)
    exact first.bind ((ih _).map _)

/-- Rules that have nothing to peel change nothing. -/
theorem Asks.peelRules_append (terminals : List Name) (k : Nat) (rules : List (Rule Body))
    {short : List (Rule Body)} (le : ∀ rule ∈ short, ∀ body ∈ rule.bodies, body.length < 2) :
    Asks terminals k ((rules ++ short).mapM (peelRule terminals)) (Grammar.peelRules k rules).2
      ((Grammar.peelRules k rules).1 ++ short) := by
  have others := Asks.peelRules terminals (k + (Grammar.peelRules k rules).2.length) short
  rw [Grammar.peelRules_of_short le] at others
  rw [List.mapM_append, ← List.append_nil (Grammar.peelRules k rules).2]
  exact (Asks.peelRules terminals k rules).bind (others.map _)

/-! ### Isolating -/

/-- The terminals with the names that they are given, from the number `k` on. -/
def memo (k : Nat) (names : List Name) : Memo :=
  (names.zipIdx k).map fun (a, n) => (a, .numbered n)

theorem lookup_memo (k : Nat) (names : List Name) (a : Name) :
    (memo k names).lookup a =
      if a ∈ names then some (.numbered (k + names.idxOf a)) else none := by
  induction names generalizing k with
  | nil => rfl
  | cons b names ih =>
    rw [memo, List.zipIdx_cons, List.map_cons, List.lookup_cons, List.idxOf_cons]
    by_cases same : a = b
    · subst same
      simp
    · have later := ih (k + 1)
      rw [memo] at later
      simp only [later, beq_eq_false_iff_ne.mpr same, beq_eq_false_iff_ne.mpr (Ne.symm same),
        List.mem_cons, same, false_or, cond_false]
      rw [Nat.add_assoc, Nat.add_comm 1]

theorem memo_concat (k : Nat) (names : List Name) (a : Name) :
    memo k (names ++ [a]) = memo k names ++ [(a, .numbered (k + names.length))] := by
  simp [memo, List.zipIdx_append]

/-- The computation meets the terminals `used` in bodies of two or more symbols, in this order. -/
def Isolates (terminals : List Name) (k : Nat) (computation : StateT Memo Binarizing α)
    (used : List Name) (value : List Name → α) : Prop :=
  -- `names` have been met before, `added` are those that are new, and `all` those met in the end
  ∀ names added all, (names ++ used).eraseDups = names ++ added → names ++ added <+: all →
    Asks terminals (k + names.length) (computation.run (memo k names))
      (added.map fun a => [.terminal a]) (value all, memo k (names ++ added))

section Isolates

variable {computation : StateT Memo Binarizing α} {next : α → StateT Memo Binarizing β}
  {used more : List Name} {value : List Name → α}

theorem nodup_of_eraseDups_eq {names added : List Name}
    (eq : (names ++ used).eraseDups = names ++ added) : (names ++ added).Nodup :=
  eq ▸ nodup_eraseDups _

theorem Isolates.pure (a : α) : Isolates terminals k (pure a) [] fun _ => a := by
  intro names added all eq _
  have none : added = [] := by
    have nodup := (List.nodup_append.mp (nodup_of_eraseDups_eq eq)).1
    rw [List.append_nil, eraseDups_of_nodup nodup] at eq
    exact List.self_eq_append_right.mp eq
  subst none
  rw [List.append_nil]
  exact .pure _

theorem Isolates.bind {result : α → List Name → β}
    (first : Isolates terminals k computation used value)
    (second : ∀ a, Isolates terminals k (next a) more (result a)) :
    Isolates terminals k (computation >>= next) (used ++ more) fun all =>
      result (value all) all := by
  intro names added all eq front
  have nodup := (List.nodup_append.mp (nodup_of_eraseDups_eq eq)).1
  -- what is met first, and what is met only after that
  obtain ⟨before, eqBefore, -⟩ : ∃ before, (names ++ used).eraseDups = names ++ before ∧ _ :=
    exists_eraseDups_append nodup
  obtain ⟨later, eqLater, -⟩ :
      ∃ later, (names ++ before ++ more).eraseDups = names ++ before ++ later ∧ _ :=
    exists_eraseDups_append (nodup_of_eraseDups_eq eqBefore)
  obtain rfl : added = before ++ later := by
    rw [← List.append_assoc, ← eraseDups_eraseDups_append, eqBefore, eqLater,
      List.append_assoc] at eq
    exact (List.append_cancel_left eq).symm
  rw [← List.append_assoc] at front ⊢
  have one := first names before all eqBefore ((List.prefix_append _ _).trans front)
  have two := second (value all) (names ++ before) later all eqLater front
  rw [List.length_append, ← Nat.add_assoc] at two
  rw [StateT.run_bind, List.map_append]
  refine one.bind ?_
  rwa [List.length_map]

theorem Isolates.map (first : Isolates terminals k computation used value) (g : α → β) :
    Isolates terminals k (do let x ← computation; return g x) used fun all => g (value all) := by
  have both : Isolates terminals k (computation >>= fun x => Pure.pure (g x)) (used ++ [])
      fun all => g (value all) := first.bind fun a => .pure (g a)
  rwa [List.append_nil] at both

/-- **A loop** meets the terminals of one thing after those of another. -/
theorem Isolates.mapM {step : β → StateT Memo Binarizing α} {used : β → List Name}
    {value : List Name → β → α} (each : ∀ x, Isolates terminals k (step x) (used x) (value · x))
    (xs : List β) :
    Isolates terminals k (xs.mapM step) (xs.flatMap used) fun all => xs.map (value all) := by
  induction xs with
  | nil => exact .pure []
  | cons x xs ih =>
    rw [List.mapM_cons, List.flatMap_cons]
    exact (each x).bind fun y => ih.map (y :: ·)

theorem run_isolateSymbol (terminals : List Name) (a : Name) (known : Memo) :
    (isolateSymbol terminals (.terminal a)).run known = match known.lookup a with
      | some name => Pure.pure (.nonterminal name, known)
      | none => do
        let name ← introduce terminals [.terminal a]
        return (.nonterminal name, known ++ [(a, name)]) := by
  have current : (get : StateT Memo Binarizing Memo).run known = Pure.pure (known, known) := rfl
  rw [isolateSymbol, StateT.run_bind, current, pure_bind]
  cases known.lookup a with
  | some name => rfl
  | none => simp

/-- A terminal that has been met has the number of its place; one that is new has the next one. -/
theorem Isolates.isolateSymbol (terminals : List Name) (k : Nat) (s : Symbol) :
    Isolates terminals k (isolateSymbol terminals s) s.terminal?.toList fun all =>
      match s with
      | .terminal a => .nonterminal (.numbered (k + all.idxOf a))
      | .nonterminal A => .nonterminal A := by
  cases s with
  | nonterminal A => exact .pure _
  | terminal a =>
    intro names added all eq front
    have nodup := (List.nodup_append.mp (nodup_of_eraseDups_eq eq)).1
    obtain ⟨rest, rfl⟩ := front
    have eq : (if a ∈ names then names else names ++ [a]) = names ++ added :=
      (eraseDups_concat nodup a).symm.trans eq
    rw [run_isolateSymbol, lookup_memo]
    by_cases met : a ∈ names
    · rw [if_pos met] at eq ⊢
      obtain rfl : added = [] := List.self_eq_append_right.mp eq
      simp only [List.append_nil, List.idxOf_append_of_mem met]
      exact .pure _
    · rw [if_neg met] at eq ⊢
      obtain rfl : added = [a] := (List.append_cancel_left eq).symm
      have place : (names ++ [a] ++ rest).idxOf a = names.length := by
        rw [List.append_assoc, List.idxOf_append_of_notMem met, List.singleton_append,
          List.idxOf_cons_self, Nat.add_zero]
      simp only [place, memo_concat]
      exact (Asks.introduce terminals _ [.terminal a]).map _

theorem Isolates.isolateBody (terminals : List Name) (k : Nat) (body : Body) :
    Isolates terminals k (isolateBody terminals body) body.crowdedTerminals fun all =>
      body.isolate k all := by
  unfold Binarizing.isolateBody Body.isolate Body.crowdedTerminals
  by_cases short : body.length < 2
  · simp only [if_pos short, if_neg (Nat.not_le_of_lt short)]
    exact .pure body
  · simp only [if_neg short, if_pos (Nat.le_of_not_lt short), Body.terminals,
      List.filterMap_eq_flatMap_toList]
    exact .mapM (Isolates.isolateSymbol terminals k) body

theorem Isolates.isolateRule (terminals : List Name) (k : Nat) (rule : Rule Body) :
    Isolates terminals k (isolateRule terminals rule)
      (rule.bodies.flatMap Body.crowdedTerminals) fun all =>
        ⟨rule.lhs, rule.bodies.map (Body.isolate k all)⟩ :=
  (Isolates.mapM (Isolates.isolateBody terminals k) rule.bodies).map (Rule.mk rule.lhs)

end Isolates

/-- **Isolating** asks for a name for each crowded terminal, in the order of first use. -/
theorem asks_isolateRules (G : Grammar) (k : Nat) :
    Asks G.terminals k ((G.rules.mapM (isolateRule G.terminals)).run [])
      (G.crowdedTerminals.map fun a => [.terminal a])
      (G.isolatedRules k, memo k G.crowdedTerminals) :=
  Isolates.mapM (Isolates.isolateRule G.terminals k) G.rules [] G.crowdedTerminals
    G.crowdedTerminals rfl (List.prefix_refl _)

end Binarizing

/-! ### Names that have been handed out -/

namespace Binarizer

open Binarizing (collect introduce introduceAll)

variable {α β : Type} {G : Grammar} {state : Binarizer} {bodies more : List Body}

/-- The non-terminals at hand are those of the grammar, and names with numbers below the next. -/
def Extends (state : Binarizer) (G : Grammar) : Prop :=
  ∃ numbers : List Nat, state.nonterminals = G.nonterminals ++ numbers.map Name.numbered ∧
    ∀ m ∈ numbers, m < state.supply.next

/-- The rules that bring in a non-terminal for each body, with numbers from `k` on. -/
def named (k : Nat) (bodies : List Body) : List (Rule Body) :=
  (bodies.zipIdx k).map fun (body, n) => ⟨.numbered n, [body]⟩

/-- The binarizer when a non-terminal has been introduced for each body. -/
def after (state : Binarizer) (bodies : List Body) : Binarizer where
  supply := ⟨state.supply.next + bodies.length⟩
  nonterminals := state.nonterminals ++ (named state.supply.next bodies).map (·.lhs)
  fresh := state.fresh ++ named state.supply.next bodies
  events := state.events ++
    (bodies.zipIdx state.supply.next).map fun (body, n) => .introducing (.numbered n) body

theorem named_append (k : Nat) (bodies more : List Body) :
    named k (bodies ++ more) = named k bodies ++ named (k + bodies.length) more := by
  rw [named, List.zipIdx_append, List.map_append]
  rfl

theorem after_nil (state : Binarizer) : state.after [] = state := by
  simp [after, named]

theorem after_cons (state : Binarizer) (body : Body) (bodies : List Body) :
    state.after (body :: bodies) = (state.after [body]).after bodies := by
  simp [after, named, Nat.add_assoc, Nat.add_comm 1]

/-- **A name that was handed out earlier never collides** with the next one, because it has a
smaller number. -/
theorem Extends.mem_iff (h : state.Extends G) :
    .numbered state.supply.next ∈ state.nonterminals ↔
      .numbered state.supply.next ∈ G.nonterminals := by
  obtain ⟨numbers, eq, earlier⟩ := h
  rw [eq, List.mem_append, or_iff_left]
  intro mem
  obtain ⟨m, hm, same⟩ := List.mem_map.mp mem
  exact absurd (Name.numbered_inj.mp same) (Nat.ne_of_lt (earlier m hm))

/-- So it is enough to look at the names that are declared. -/
theorem Extends.mint_eq (h : state.Extends G) :
    state.supply.mint state.nonterminals G.terminals
      = state.supply.mint G.nonterminals G.terminals := by
  unfold NameSupply.mint
  simp only [h.mem_iff]

theorem Extends.after (h : state.Extends G) (bodies : List Body) :
    (state.after bodies).Extends G := by
  obtain ⟨numbers, eq, earlier⟩ := h
  refine ⟨numbers ++ (bodies.zipIdx state.supply.next).map (·.2), ?_, ?_⟩
  · rw [Binarizer.after, eq, named, List.map_append, List.append_assoc, List.map_map, List.map_map]
    rfl
  · intro m mem
    show m < state.supply.next + bodies.length
    -- the numbers that have just been handed out lie below the next one, as the earlier ones do
    rcases List.mem_append.mp mem with mem | mem
    · exact Nat.lt_add_right _ (earlier m mem)
    · rw [List.zipIdx_map_snd] at mem
      exact (List.mem_range'_1.mp mem).2

/-- From `state`, the computation comes to what handing out names for the bodies comes to. If they
are to be had, it answers with `a` and leaves `last`. -/
def Performs (G : Grammar) (state : Binarizer) (computation : Binarizing α) (bodies : List Body)
    (a : α) (last : Binarizer) : Prop :=
  ∃ reached, computation.perform state
      = ((state.supply.introduce G bodies).2.outcome.map fun _ => a, reached) ∧
    reached.supply = (state.supply.introduce G bodies).1 ∧
    reached.events = state.events ++ (state.supply.introduce G bodies).2.events ∧
    ((state.supply.introduce G bodies).2.outcome = .ok () → reached = last)

/-- What hands out no name and tells of nothing. -/
theorem Performs.quiet {computation : Binarizing α} {a : α} {last : Binarizer}
    (performed : computation.perform state = (.ok a, last)) (supply : last.supply = state.supply)
    (events : last.events = state.events) : Performs G state computation [] a last :=
  ⟨last, performed, supply, events.trans (List.append_nil _).symm, fun _ => rfl⟩

/-- **One computation after the other** hands out the names of both. -/
theorem Performs.bind {computation : Binarizing α} {next : α → Binarizing β} {a : α} {b : β}
    {middle last : Binarizer} (first : Performs G state computation bodies a middle)
    (second : Performs G middle (next a) more b last) :
    Performs G state (computation >>= next) (bodies ++ more) b last := by
  obtain ⟨reached, performed, supply, events, ok⟩ := first
  rw [Performs, Binarizing.perform_bind, performed]
  cases outcome : (state.supply.introduce G bodies).2.outcome with
  | error failure =>
    -- the second computation does not start
    rw [NameSupply.introduce_append_of_error outcome, outcome]
    exact ⟨reached, rfl, supply, events, nofun⟩
  | ok =>
    -- the second one starts where the first one has come to
    obtain rfl := ok outcome
    obtain ⟨last, performed, supplyLast, eventsLast, ok⟩ := second
    rw [NameSupply.introduce_append_of_ok outcome, ← supply]
    refine ⟨last, ?_, supplyLast, ?_, fun succeeded => ok ?_⟩
    · rw [Report.outcome_bind, outcome]
      exact performed
    · rw [Report.events_bind_of_ok outcome, eventsLast, events, List.append_assoc]
    · rw [Report.outcome_bind, outcome] at succeeded
      exact succeeded

/-- What follows may hand out no name. -/
theorem Performs.bind_quiet {computation : Binarizing α} {next : α → Binarizing β} {a : α} {b : β}
    {middle last : Binarizer} (first : Performs G state computation bodies a middle)
    (second : Performs G middle (next a) [] b last) :
    Performs G state (computation >>= next) bodies b last := by
  have both : Performs G state (computation >>= next) (bodies ++ []) b last := first.bind second
  rwa [List.append_nil] at both

/-- One name is handed out, or it is refused. -/
theorem Extends.performs_introduce (h : state.Extends G) (body : Body) :
    Performs G state (introduce G.terminals body) [body] (.numbered state.supply.next)
      (state.after [body]) := by
  rw [Performs, Binarizing.perform_introduce, h.mint_eq]
  rcases NameSupply.mint_cases G.nonterminals G.terminals state.supply with
    ⟨_, _, refused, _⟩ | minted
  · rw [refused, NameSupply.introduce_cons_of_error refused]
    refine ⟨_, rfl, rfl, (List.append_nil _).symm, ?_⟩
    intro ok
    cases ok
  · rw [minted, NameSupply.introduce_cons_of_ok minted]
    exact ⟨_, rfl, rfl, rfl, fun _ => rfl⟩

/-- **Asking for names one by one** comes to what handing them out at once comes to. -/
theorem Extends.performs_introduceAll (h : state.Extends G) (bodies : List Body) :
    Performs G state (introduceAll G.terminals bodies) bodies () (state.after bodies) := by
  induction bodies generalizing state with
  | nil =>
    rw [after_nil]
    exact .quiet rfl rfl rfl
  | cons body bodies ih =>
    rw [after_cons]
    exact (h.performs_introduce body).bind (ih (h.after [body]))

theorem Extends.performs_of_asks (h : state.Extends G) {computation : Binarizing α} {a : α}
    (asks : Binarizing.Asks G.terminals state.supply.next computation bodies a) :
    Performs G state computation bodies a (state.after bodies) := by
  have answered : Performs G (state.after bodies) (pure a) [] a (state.after bodies) :=
    .quiet rfl rfl rfl
  rw [Performs, asks state rfl]
  exact (h.performs_introduceAll bodies).bind_quiet answered

/-- The binarizer when the rules that bring in the bodies have been introduced and collected. -/
def collected (state : Binarizer) (bodies : List Body) : Binarizer :=
  { state.after bodies with fresh := [] }

/-- What has been introduced by a computation is collected after it. -/
theorem Extends.performs_collect (h : state.Extends G) (none : state.fresh = [])
    {computation : Binarizing α} {a : α}
    (asks : Binarizing.Asks G.terminals state.supply.next computation bodies a)
    (rules : α → List (Rule Body)) (result : α → List (Rule Body) → β) :
    Performs G state (do let x ← computation; return result x (← collect (rules x))) bodies
      (result a (rules a ++ named state.supply.next bodies)) (state.collected bodies) := by
  have introduced : (state.after bodies).fresh = named state.supply.next bodies := by
    rw [Binarizer.after, none, List.nil_append]
  have collecting : Performs G (state.after bodies) (do return result a (← collect (rules a))) []
      (result a (rules a ++ named state.supply.next bodies)) (state.collected bodies) := by
    rw [← introduced]
    exact .quiet rfl rfl rfl
  exact (h.performs_of_asks asks).bind_quiet collecting

end Binarizer

namespace Grammar

open Binarizing

variable {G : Grammar} {k : Nat} {state : Binarizer}

/-! ### The binary form -/

/-- The bodies of isolated terminals. -/
def crowdedBodies (G : Grammar) : List Body := G.crowdedTerminals.map fun a => [.terminal a]

/-- **The first time**, names are asked for the terminals. -/
theorem performs_isolating (h : state.Extends G) (none : state.fresh = []) :
    state.Performs G G.isolating G.crowdedBodies
      (G.isolatedRules state.supply.next ++ Binarizer.named state.supply.next G.crowdedBodies,
        G.crowdedTerminals.length)
      (state.collected G.crowdedBodies) := by
  have length : (memo state.supply.next G.crowdedTerminals).length = G.crowdedTerminals.length := by
    rw [memo, List.length_map, List.length_zipIdx]
  rw [← length]
  exact h.performs_collect none (asks_isolateRules G state.supply.next) (·.1)
    fun isolated rules => (rules, isolated.2.length)

/-- **The second time**, names are asked for the pairs. The bodies of isolated terminals are short,
so they are left alone. -/
theorem performs_peelRules (h : state.Extends G) (none : state.fresh = [])
    (numbers : state.supply.next = k + G.crowdedTerminals.length) :
    state.Performs G
      (Binarizing.peelRules G.terminals (G.isolatedRules k ++ Binarizer.named k G.crowdedBodies))
      (G.peeled k).2
      ((G.peeled k).1 ++ Binarizer.named k G.crowdedBodies ++
        Binarizer.named state.supply.next (G.peeled k).2)
      (state.collected (G.peeled k).2) := by
  have short : ∀ rule ∈ Binarizer.named k G.crowdedBodies, ∀ body ∈ rule.bodies,
      body.length < 2 := by
    intro rule hrule body hbody
    obtain ⟨⟨own, n⟩, hown, rfl⟩ := List.mem_map.mp hrule
    obtain ⟨a, -, rfl⟩ := List.mem_map.mp (List.fst_mem_of_mem_zipIdx hown)
    rw [List.mem_singleton.mp hbody]
    exact Nat.lt_succ_self 1
  have peeling : Asks G.terminals state.supply.next
      ((G.isolatedRules k ++ Binarizer.named k G.crowdedBodies).mapM (peelRule G.terminals))
      (G.peeled k).2 ((G.peeled k).1 ++ Binarizer.named k G.crowdedBodies) := by
    rw [numbers]
    exact .peelRules_append G.terminals _ (G.isolatedRules k) short
  have collected := h.performs_collect none peeling (fun rules => rules) fun _ rules => rules
  simpa only [Binarizing.peelRules, bind_pure] using collected

/-- **Going through the bodies** asks for the names of the binary form, and answers with it. -/
theorem performs_binarizing (G : Grammar) (supply : NameSupply) :
    ∃ last, Binarizer.Performs G ⟨supply, G.nonterminals, [], []⟩ G.binarizing
      (G.freshBodies supply.next) (G.binaryForm supply.next, G.crowdedTerminals.length) last := by
  let start : Binarizer := ⟨supply, G.nonterminals, [], []⟩
  let middle : Binarizer := start.collected G.crowdedBodies
  have begins : start.Extends G := ⟨[], (List.append_nil _).symm, nofun⟩
  have continues : middle.Extends G := begins.after G.crowdedBodies
  have numbers : middle.supply.next = supply.next + G.crowdedTerminals.length :=
    congrArg (supply.next + ·) (List.length_map _)
  have first := performs_isolating begins rfl
  have second := performs_peelRules continues rfl numbers
  -- the fresh rules are those of the terminals and those of the pairs
  have rules : G.freshRules supply.next = Binarizer.named supply.next G.crowdedBodies ++
      Binarizer.named middle.supply.next (G.peeled supply.next).2 :=
    Binarizer.named_append ..
  have answer : (middle.collected (G.peeled supply.next).2).Performs G
      (do return ({ G with
        nonterminals := (← get).nonterminals
        rules := (G.peeled supply.next).1 ++ Binarizer.named supply.next G.crowdedBodies ++
          Binarizer.named middle.supply.next (G.peeled supply.next).2 },
        G.crowdedTerminals.length)) []
      (G.binaryForm supply.next, G.crowdedTerminals.length)
      (middle.collected (G.peeled supply.next).2) := by
    refine .quiet ?_ rfl rfl
    rw [binaryForm, rules, List.map_append, List.append_assoc, ← List.append_assoc G.nonterminals]
    rfl
  exact ⟨_, first.bind (second.bind_quiet answer)⟩

/-- **Binarization**, without going through the bodies. -/
theorem binarizeWith_eq (G : Grammar) (supply : NameSupply) :
    G.binarizeWith supply =
      let supply := supply.advance G.nonterminals.length
      let fresh := G.freshBodies supply.next
      let (rest, introduced) := supply.introduce G fresh
      (rest, do
        introduced
        .note (.binarized G.crowdedTerminals.length fresh.length)
        return G.binaryForm supply.next) := by
  obtain ⟨last, reached, performed, rest, events, -⟩ :=
    performs_binarizing G (supply.advance G.nonterminals.length)
  have fresh (k : Nat) : (G.binaryForm k).nonterminals.length - G.nonterminals.length
      = (G.freshBodies k).length := by
    rw [binaryForm, List.length_append, Nat.add_sub_cancel_left, List.length_map, freshRules,
      List.length_map, List.length_zipIdx]
  rw [binarizeWith, performed]
  simp only [rest, events, List.nil_append]
  refine congrArg (Prod.mk _) ?_
  rw [← fresh]
  -- what follows on the names cannot fail
  generalize NameSupply.introduce G _ _ = answer
  obtain ⟨_, _, failure | _⟩ := answer <;> rfl

end Grammar

end ContextFree

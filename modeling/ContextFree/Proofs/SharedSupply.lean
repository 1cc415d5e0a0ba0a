import ContextFree.Proofs.BinaryForm
import Mathlib.Data.List.Pairwise

/-!
# One supply for several binarizations

A supply of names can be carried from one binarization to the next. It is moved by calls of all
kinds: a call that succeeds has handed out all names that it needs, one that meets a taken name has
moved past that name, and one that runs out of numbers leaves the supply at the last number. What
has been handed out before a failure stays handed out.

Whatever happens in a call, its names are numbered in ascending order from where the supply was on,
and the supply ends up above all of them (`NameSupply.HandsOut`). This is kept when one call follows
another (`NameSupply.HandsOut.append`), so it holds of single names
(`NameSupply.handsOut_introduce`), of a binarization (`Grammar.handsOut_binarizeWith`) and of any
number of them (`Grammar.handsOut_binarizeEach`). Different numbers have different names; hence no
name is handed out twice (`Grammar.nodup_introduced_binarizeEach`).
-/

namespace ContextFree

namespace NameSupply

variable {low middle high : Nat} {names others : List Name} {supply : NameSupply}

/-- A supply that was at the number `low` and is now at `high` has handed out the names, in this
order. -/
structure HandsOut (low high : Nat) (names : List Name) : Prop where
  /-- The supply has not moved back. -/
  le : low ≤ high
  /-- The names are numbered upwards, and the numbers are those that the supply has passed. -/
  exists_numbers : ∃ numbers : List Nat, names = numbers.map Name.numbered ∧
    numbers.Pairwise (· < ·) ∧ ∀ m ∈ numbers, low ≤ m ∧ m < high

namespace HandsOut

/-- Moving forward hands out no names. -/
theorem nil (le : low ≤ high) : HandsOut low high [] :=
  ⟨le, [], rfl, List.Pairwise.nil, fun _ mem => absurd mem List.not_mem_nil⟩

/-- A supply hands out the name of the number that it is at. -/
theorem singleton (n : Nat) : HandsOut n (n + 1) [.numbered n] := by
  refine ⟨Nat.le_succ n, [n], rfl, List.pairwise_singleton _ n, ?_⟩
  intro m mem
  rw [List.mem_singleton.mp mem]
  exact ⟨Nat.le_refl n, Nat.lt_succ_self n⟩

/-- **What is handed out later has higher numbers.** -/
theorem append (first : HandsOut low middle names) (second : HandsOut middle high others) :
    HandsOut low high (names ++ others) := by
  obtain ⟨le, numbers, rfl, ascending, passed⟩ := first
  obtain ⟨leLater, later, rfl, ascendingLater, passedLater⟩ := second
  refine ⟨Nat.le_trans le leLater, numbers ++ later, ?_, ?_, ?_⟩
  · exact List.map_append.symm
  · -- the first numbers lie below the middle, and the others do not
    refine List.pairwise_append.mpr ⟨ascending, ascendingLater, ?_⟩
    intro m hm n hn
    exact Nat.lt_of_lt_of_le (passed m hm).2 (passedLater n hn).1
  · intro m mem
    rcases List.mem_append.mp mem with mem | mem
    · exact ⟨(passed m mem).1, Nat.lt_of_lt_of_le (passed m mem).2 leLater⟩
    · exact ⟨Nat.le_trans le (passedLater m mem).1, (passedLater m mem).2⟩

/-- **No name is handed out twice**, since different numbers have different names. -/
theorem nodup (handsOut : HandsOut low high names) : names.Nodup := by
  obtain ⟨_, numbers, rfl, ascending, _⟩ := handsOut
  have distinct : numbers.Nodup := ascending.imp fun less => Nat.ne_of_lt less
  exact distinct.map fun _ _ same => Name.numbered_inj.mp same

end HandsOut

/-! ### Single names -/

/-- Where a name is handed out, the report tells of it before it tells of the others. -/
theorem introduced_note (name : Name) (body : Body) (others : Report Unit) :
    (do Report.note (.introducing name body); others : Report Unit).introduced
      = name :: others.introduced :=
  Report.introduced_bind_of_ok rfl _

/-- **Handing out names**, with whatever end, moves the supply past the names that it told of. -/
theorem handsOut_introduce (G : Grammar) (supply : NameSupply) (bodies : List Body) :
    HandsOut supply.next (supply.introduce G bodies).1.next
      (supply.introduce G bodies).2.introduced := by
  induction bodies generalizing supply with
  | nil => exact .nil (Nat.le_refl _)
  | cons body bodies ih =>
    rcases mint_cases G.nonterminals G.terminals supply with ⟨_, _, refused, le⟩ | minted
    · -- the supply may have moved past a name that is taken, but nothing is handed out
      rw [introduce_cons_of_error refused]
      exact .nil le
    · -- one name for this body, and the numbers after it for the others
      rw [introduce_cons_of_ok minted, introduced_note]
      exact (HandsOut.singleton supply.next).append (ih ⟨supply.next + 1⟩)

/-- If all goes well, there is one name for each body. -/
theorem introduced_of_introduce_eq_ok {G : Grammar} {bodies : List Body}
    (ok : (supply.introduce G bodies).2.outcome = .ok ()) :
    (supply.introduce G bodies).2.introduced
      = (List.range' supply.next bodies.length).map Name.numbered := by
  induction bodies generalizing supply with
  | nil => rfl
  | cons body bodies ih =>
    rcases mint_cases G.nonterminals G.terminals supply with ⟨_, _, refused, _⟩ | minted
    · rw [introduce_cons_of_error refused] at ok
      cases ok
    · rw [introduce_cons_of_ok minted, Report.outcome_note_bind] at ok
      rw [introduce_cons_of_ok minted, introduced_note, ih ok, List.length_cons, List.range'_succ,
        List.map_cons]

end NameSupply

namespace Grammar

open NameSupply (HandsOut)

variable {G H : Grammar} {supply : NameSupply}

/-! ### Binarizations -/

/-- A binarization hands out names and does nothing else that a supply would show. -/
theorem introduced_binarizeWith (G : Grammar) (supply : NameSupply) :
    (G.binarizeWith supply).2.introduced
      = ((supply.advance G.nonterminals.length).introduce G
          (G.freshBodies (supply.advance G.nonterminals.length).next)).2.introduced := by
  rw [binarizeWith_eq]
  exact Report.introduced_bind_of_quiet (fun _ => rfl) _

/-- **One binarization** moves the supply past the names that it hands out, also if it fails. -/
theorem handsOut_binarizeWith (G : Grammar) (supply : NameSupply) :
    HandsOut supply.next (G.binarizeWith supply).1.next (G.binarizeWith supply).2.introduced := by
  -- numbers are passed over first, and then names are handed out
  have passed : HandsOut supply.next (supply.advance G.nonterminals.length).next [] :=
    .nil (Nat.le_max_left _ _)
  have state : (G.binarizeWith supply).1 = ((supply.advance G.nonterminals.length).introduce G
      (G.freshBodies (supply.advance G.nonterminals.length).next)).1 := by
    rw [binarizeWith_eq]
  rw [introduced_binarizeWith, state]
  exact passed.append (NameSupply.handsOut_introduce G _ _)

/-- The names that a binarization hands out are the new non-terminals, if it succeeds. -/
theorem nonterminals_of_binarizeWith (ok : (G.binarizeWith supply).2.outcome = .ok H) :
    H.nonterminals = G.nonterminals ++ (G.binarizeWith supply).2.introduced := by
  rw [outcome_binarizeWith rfl] at ok
  obtain ⟨⟨⟩, introduced, rfl⟩ := exists_of_map_eq_ok ok
  have names := NameSupply.introduced_of_introduce_eq_ok introduced
  rw [length_freshBodies] at names
  rw [introduced_binarizeWith, nonterminals_binaryForm]
  exact congrArg _ names.symm

/-- Binarizes several grammars, one after the other, with one supply. A call that fails keeps none
of the others from being made; each starts with the supply that the one before it has left. -/
def binarizeEach : NameSupply → List Grammar → List (NameSupply × Report Grammar)
  | _, [] => []
  | supply, G :: grammars =>
    let call := G.binarizeWith supply
    call :: binarizeEach call.1 grammars

/-- The supply does not move back from one call to the next. -/
theorem pairwise_next_binarizeEach (supply : NameSupply) (grammars : List Grammar) :
    (supply :: (binarizeEach supply grammars).map (·.1)).Pairwise (·.next ≤ ·.next) := by
  induction grammars generalizing supply with
  | nil => exact List.pairwise_singleton _ supply
  | cons G grammars ih =>
    have first : supply.next ≤ (G.binarizeWith supply).1.next := (handsOut_binarizeWith G supply).le
    have others := ih (G.binarizeWith supply).1
    refine List.pairwise_cons.mpr ⟨?_, others⟩
    -- what the first call leaves is not below, and the later calls leave no less than that
    intro later mem
    rcases List.mem_cons.mp mem with rfl | mem
    · exact first
    · exact Nat.le_trans first (List.rel_of_pairwise_cons others mem)

/-- **Any number of binarizations** move the supply past the names that all of them hand out. -/
theorem handsOut_binarizeEach (supply : NameSupply) (grammars : List Grammar) :
    ∃ high, HandsOut supply.next high
      ((binarizeEach supply grammars).flatMap (·.2.introduced)) := by
  induction grammars generalizing supply with
  | nil => exact ⟨supply.next, .nil (Nat.le_refl _)⟩
  | cons G grammars ih =>
    obtain ⟨high, others⟩ := ih (G.binarizeWith supply).1
    exact ⟨high, (handsOut_binarizeWith G supply).append others⟩

/-- Each of several binarizations is one of a grammar, with some supply. -/
theorem exists_supply_of_mem_zip {grammars : List Grammar} {call : NameSupply × Report Grammar}
    (mem : (G, call) ∈ grammars.zip (binarizeEach supply grammars)) :
    ∃ own, call = G.binarizeWith own := by
  induction grammars generalizing supply with
  | nil => cases mem
  | cons first grammars ih =>
    rcases List.mem_cons.mp mem with same | mem
    · cases same
      exact ⟨supply, rfl⟩
    · exact ih mem

/-- **A supply that several binarizations share** never moves back, and no two of the names that
they hand out are the same, be it in one call or in different ones, and whether the calls succeed or
not. The names that a call hands out are the new non-terminals, if it succeeds. -/
theorem nodup_introduced_binarizeEach (supply : NameSupply) (grammars : List Grammar) :
    (supply :: (binarizeEach supply grammars).map (·.1)).Pairwise (·.next ≤ ·.next) ∧
      ((binarizeEach supply grammars).flatMap (·.2.introduced)).Nodup ∧
      ∀ G call, (G, call) ∈ grammars.zip (binarizeEach supply grammars) →
        ∀ H, call.2.outcome = .ok H → H.nonterminals = G.nonterminals ++ call.2.introduced := by
  refine ⟨pairwise_next_binarizeEach supply grammars, ?_, ?_⟩
  · obtain ⟨_, handsOut⟩ := handsOut_binarizeEach supply grammars
    exact handsOut.nodup
  · intro G call mem H ok
    obtain ⟨own, rfl⟩ := exists_supply_of_mem_zip mem
    exact nonterminals_of_binarizeWith ok

/-- Two binarizations of the grammar of brackets, when six numbers are left: four names for the
first one, and a single one for the second before the numbers run out. -/
theorem brackets_nodup_introduced :
    (binarizeEach ⟨NameSupply.limit - 6⟩ [brackets, brackets]).map (·.1.next)
        = [NameSupply.limit - 2, NameSupply.limit - 1] ∧
      (binarizeEach ⟨NameSupply.limit - 6⟩ [brackets, brackets]).map (·.2.introduced.length)
        = [4, 1] ∧
      ((binarizeEach ⟨NameSupply.limit - 6⟩ [brackets, brackets]).flatMap
        (·.2.introduced)).Nodup := by
  refine ⟨by decide +kernel, by decide +kernel, ?_⟩
  exact (nodup_introduced_binarizeEach ⟨NameSupply.limit - 6⟩ [brackets, brackets]).2.1

end Grammar

end ContextFree
